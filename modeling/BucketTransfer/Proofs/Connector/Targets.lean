import BucketTransfer.Connector
import BucketTransfer.Proofs.Bucket.Resource
import BucketTransfer.Proofs.Dialogue.Task
import BucketTransfer.Proofs.Files.Disk
import BucketTransfer.Proofs.ObjectStore.Exchanges

/-!
# Where targets lead

The address of a target says what the target says. A source or a sink for it is come by without a
question about objects or files, so that neither a store nor a disk is touched before the transfer
begins.
-/
namespace BucketTransfer

namespace DataAddress

theorem property_withProperty (a : DataAddress) (key other : String) (value : Option String) :
    (Connector.withProperty a key value).property other =
      if other = key then value.elim (a.property key) present else a.property other := by
  cases value with
  | none =>
    split
    · rename_i heq
      rw [heq]
      rfl
    · rfl
  | some value => exact property_set a key value other

end DataAddress

/-- A question that is neither about objects nor about files. -/
def World.Question.IsAside : World.Question → Prop
  | .request .. | .file _ => False
  | _ => True

/-- What is said aside changes neither a store nor a disk. -/
theorem eq_of_asides {said : List (Exchange World)} (h : ∀ e ∈ said, e.question.IsAside) :
    (∀ {m n : ObjectStore.Memory}, Leads ObjectStore.Memory.Step m said n → n = m) ∧
      ∀ {d d' : Files.Disk}, Leads Files.Disk.Step d said d' → d' = d := by
  constructor
  · intro m n hs
    refine hs.eq_of_idle fun e he s t hstep => hstep.eq_of_aside fun c r heq => ?_
    have haside := h e he
    rw [heq] at haside
    exact haside
  · intro d d' hs
    refine hs.eq_of_idle fun e he s t hstep => hstep.eq_of_aside fun q heq => ?_
    have haside := h e he
    rw [heq] at haside
    exact haside

namespace Transfer
variable {a : DataAddress} {endpoint bucket : String} {kept kept' : Clients}
  {said : List (Exchange World)}

theorem bucketName_of_located (h : located a = .ok (bucket, endpoint)) :
    a.bucketName = some bucket := by
  rw [located] at h
  split at h
  · rename_i hname _
    obtain ⟨rfl, -⟩ := Prod.mk.inj (Except.ok.inj h)
    exact hname
  · exact absurd h (by simp)
  · exact absurd h (by simp)

private theorem asides_obtain (endpoint : String) :
    (Clients.obtain endpoint).Asks World.Question.IsAside := by
  intro kept
  simp only [Clients.obtain, ExceptT.run_mk]
  cases kept.get? endpoint with
  | some client => exact .done _
  | none =>
    refine Dialogue.Asks.bind (.ask trivial fun _ => .done _) ?_
    rintro (_ | _) <;> exact .done _

private theorem asides_clientFor : (clientFor a endpoint).Asks World.Question.IsAside := by
  have hstored : (storedCredential a).Asks World.Question.IsAside := by
    rw [storedCredential]
    split
    · exact Task.asks_settled _
    · exact Task.asks_attempt (.ask trivial fun _ => .done _)
  refine hstored.bind ?_
  rintro (_ | text)
  · exact ((asides_obtain endpoint).describing _).bind fun _ => Task.asks_settled _
  · dsimp only
    split
    · exact Task.asks_settled _
    · refine (Task.asks_ask (.ask trivial fun _ => .done _)).bind fun time => ?_
      split
      · exact Task.asks_settled _
      · exact (Task.asks_attempt (.ask trivial fun _ => .done _)).bind
          fun _ => Task.asks_settled _

theorem asides_sourceFor (a : DataAddress) : (sourceFor a).Asks World.Question.IsAside :=
  (Task.asks_settled _).bind fun _ => asides_clientFor.bind fun _ => Task.asks_settled _

theorem asides_sinkFor (chunkSize : Nat) (a : DataAddress) :
    (sinkFor chunkSize a).Asks World.Question.IsAside := by
  refine (Task.asks_settled _).bind fun _ => asides_clientFor.bind ?_
  rintro ⟨client, temporary⟩
  dsimp only
  split
  · refine Task.Asks.bind (fun kept => ?_) fun _ => Task.asks_settled _
    refine Dialogue.Asks.bind (asides_obtain _ kept) ?_
    rintro ⟨_ | _, _⟩ <;> exact .done _
  · exact Task.asks_settled _

/-- A source for an address is one of its bucket, its prefix and its object. -/
theorem source_of_runs {source : Source}
    (h : (sourceFor a).Runs kept said (some (.ok source, kept'))) :
    a.bucketName = some source.bucket ∧ source.keyPrefix = a.keyPrefix ∧
      source.objectName = a.objectName := by
  obtain ⟨first, rest, ⟨bucket, endpoint⟩, mid, rfl, hplace, hrest⟩ := Task.runs_bind_ok.1 h
  obtain ⟨hlocated, -, -⟩ := Task.runs_settled_ok.1 hplace
  obtain ⟨second, last, ⟨client, _⟩, mid', rfl, -, hend⟩ := Task.runs_bind_ok.1 hrest
  obtain ⟨rfl, -, -⟩ := Task.runs_pure_ok.1 hend
  exact ⟨bucketName_of_located hlocated, rfl, rfl⟩

/-- A sink for an address is one of its bucket and its prefix. -/
theorem sink_of_runs {chunkSize : Nat} {sink : Sink}
    (h : (sinkFor chunkSize a).Runs kept said (some (.ok sink, kept'))) :
    a.bucketName = some sink.bucket ∧ sink.keyPrefix = a.keyPrefix := by
  obtain ⟨first, rest, ⟨bucket, endpoint⟩, mid, rfl, hplace, hrest⟩ := Task.runs_bind_ok.1 h
  obtain ⟨hlocated, -, -⟩ := Task.runs_settled_ok.1 hplace
  obtain ⟨second, last, ⟨client, temporary⟩, mid', rfl, -, hend⟩ := Task.runs_bind_ok.1 hrest
  have hname := bucketName_of_located hlocated
  cases temporary with
  | true =>
    obtain ⟨_, _, other, _, -, -, hsink⟩ := Task.runs_bind_ok.1 hend
    obtain ⟨rfl, -, -⟩ := Task.runs_pure_ok.1 hsink
    exact ⟨hname, rfl⟩
  | false =>
    obtain ⟨rfl, -, -⟩ := Task.runs_pure_ok.1 hend
    exact ⟨hname, rfl⟩

end Transfer

namespace Connector
open DataAddress

variable {target : Target} {endpoint : String} {objectName : Option String}

/-- The name of a single object, if it is not empty. -/
def single (objectName : Option String) : Option String := objectName.bind present

private theorem getD_present (value : String) : (present value).getD "" = value := by
  by_cases hempty : value = ""
  · rw [hempty]
    rfl
  · rw [present_of_ne hempty, Option.getD_some]

theorem bucketName_address (target : Target) (endpoint : String) :
    (target.address endpoint).bucketName = present target.bucket := by
  have hkeys : bucketNameKey ≠ keyNameKey ∧ bucketNameKey ≠ keyPrefixKey ∧
      bucketNameKey ≠ endpointKey := by decide
  have hbucket : (ofBucket target.bucket (target.endpoint.getD endpoint)).property bucketNameKey =
      present target.bucket := by
    rw [ofBucket, property_set, if_neg hkeys.2.2, property_set, if_pos rfl]
  rw [DataAddress.bucketName, Target.address, property_withProperty, if_neg hkeys.1]
  split
  · exact hbucket
  · rw [property_set, if_neg hkeys.2.1, hbucket]

theorem keyPrefix_address (target : Target) (endpoint : String) :
    (target.address endpoint).keyPrefix = target.keyPrefix := by
  have hkeys : keyPrefixKey ≠ keyNameKey ∧ keyPrefixKey ≠ endpointKey ∧
      keyPrefixKey ≠ bucketNameKey ∧ keyPrefixKey ≠ typeKey := by decide
  rw [DataAddress.keyPrefix, Target.address, property_withProperty, if_neg hkeys.1]
  split
  · rename_i hempty
    rw [ofBucket, ofType, property_set, if_neg hkeys.2.1, property_set, if_neg hkeys.2.2.1,
      property_set, if_neg hkeys.2.2.2]
    exact (String.isEmpty_iff.1 hempty).symm
  · rw [property_set, if_pos rfl, getD_present]

private theorem objectName_address (target : Target) (endpoint : String) :
    (target.address endpoint).objectName = none := by
  have hkeys : objectNameKey ≠ keyNameKey ∧ objectNameKey ≠ keyPrefixKey ∧
      objectNameKey ≠ endpointKey ∧ objectNameKey ≠ bucketNameKey ∧ objectNameKey ≠ typeKey := by
    decide
  have hbucket : (ofBucket target.bucket (target.endpoint.getD endpoint)).property objectNameKey =
      none := by
    rw [ofBucket, ofType, property_set, if_neg hkeys.2.2.1, property_set, if_neg hkeys.2.2.2.1,
      property_set, if_neg hkeys.2.2.2.2]
    rfl
  rw [DataAddress.objectName, Target.address, property_withProperty, if_neg hkeys.1]
  split
  · exact hbucket
  · rw [property_set, if_neg hkeys.2.1, hbucket]

private theorem eq_of_present {value found : String} (h : present value = some found) :
    found = value := by
  by_cases hempty : value = ""
  · rw [hempty] at h
    exact absurd h (by decide +revert)
  · rw [present_of_ne hempty] at h
    exact (Option.some.inj h).symm

variable {kept kept' : Clients} {said : List (Exchange World)}

/-- A source for a target, and perhaps for one of its objects, is one of its bucket, of its prefix
and of the object. -/
theorem source_of_target {source : Transfer.Source}
    (h : (Transfer.sourceFor (withProperty (target.address endpoint) objectNameKey objectName)).Runs
      kept said (some (.ok source, kept'))) :
    source.bucket = target.bucket ∧ source.keyPrefix = target.keyPrefix ∧
      source.objectName = single objectName := by
  obtain ⟨hbucket, hunder, hobject⟩ := Transfer.source_of_runs h
  have hkeys : bucketNameKey ≠ objectNameKey ∧ keyPrefixKey ≠ objectNameKey := by decide
  rw [DataAddress.bucketName, property_withProperty, if_neg hkeys.1] at hbucket
  rw [DataAddress.keyPrefix, property_withProperty, if_neg hkeys.2] at hunder
  rw [DataAddress.objectName, property_withProperty, if_pos rfl] at hobject
  refine ⟨eq_of_present ((bucketName_address target endpoint).symm.trans hbucket),
    hunder.trans (keyPrefix_address target endpoint), hobject.trans ?_⟩
  cases objectName with
  | none => exact objectName_address target endpoint
  | some name => rfl

/-- A sink for a target is one of its bucket and its prefix. -/
theorem sink_of_target {chunkSize : Nat} {sink : Transfer.Sink}
    (h : (Transfer.sinkFor chunkSize (target.address endpoint)).Runs kept said
      (some (.ok sink, kept'))) :
    sink.bucket = target.bucket ∧ sink.keyPrefix = target.keyPrefix := by
  obtain ⟨hbucket, hunder⟩ := Transfer.sink_of_runs h
  exact ⟨eq_of_present ((bucketName_address target endpoint).symm.trans hbucket),
    hunder.trans (keyPrefix_address target endpoint)⟩

end Connector

end BucketTransfer
