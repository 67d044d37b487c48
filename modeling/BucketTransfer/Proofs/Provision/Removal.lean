import BucketTransfer.Proofs.ObjectStore.Shared
import BucketTransfer.Proofs.Provision.Teardown
import BucketTransfer.Proofs.Services.InMemory

/-!
# What a teardown leaves

A teardown at a store in memory, which may fail at any request, as may the keeper of secrets. The
bucket is asked to be deleted only when it holds nothing, and a teardown that fails before that
leaves what it did not delete as it was.
-/
namespace BucketTransfer.Provision
open ObjectStore (Memory)
open ObjectStore.Memory
open Secrets (Keeper)
open Services (InMemory)

/-- What is left of a bucket: objects that it held, as they were, but none under keys that are gone.
-/
structure Depleted (m : Memory) (bucket : String) (gone : List String) (n : Memory) : Prop where
  left : ∃ objects left, m.buckets.get? bucket = some objects ∧ n.buckets.get? bucket = some left ∧
    ∀ key body, left.get? key = some body → objects.get? key = some body ∧ key ∉ gone
  others : ∀ b, b ≠ bucket → n.buckets.get? b = m.buckets.get? b
  uploads : n.uploads = m.uploads

/-- A bucket that is asked to be deleted holds nothing. -/
def Emptied (n : Memory) (e : Exchange World) : Prop :=
  ∀ c b, e.question = .request c (.deleteBucket b) → n.buckets.get? b = some ∅

/-- What an exchange does to a store whose buckets are empty when they are asked to be deleted. -/
def Carefully (n : Memory) (e : Exchange World) (n' : Memory) : Prop := Emptied n e ∧ n.Step e n'

variable {p : Provisioner} {r : Retry} {c : Client} {bucket : String} {m n n' : Memory}
  {objects : KeyMap Bytes} {gone keys : List String} {said : List (Exchange World)}

section Trials

/-- Only a request for a bucket to be deleted has to meet it empty. -/
private theorem carefully_of_ne (h : Leads Memory.Step m said n)
    (hsaid : ∀ e ∈ said, ∀ c b, e.question ≠ .request c (.deleteBucket b)) :
    Leads Carefully m said n := by
  apply h.mono
  intro e he s s' hstep
  exact ⟨fun c b hquestion => absurd hquestion (hsaid e he c b), hstep⟩

theorem mem_trials {trials : List Trial} {e : Exchange World}
    (h : e ∈ trials.flatMap (·.said r c)) :
    (∃ time, e = Retry.waiting time) ∨ ∃ t ∈ trials, ∃ answer, e = c.exchange t.request answer := by
  obtain ⟨t, ht, he⟩ := List.mem_flatMap.1 h
  rcases Retry.mem_tried he with hwait | ⟨answer, heq, -⟩
  · exact .inl hwait
  · exact .inr ⟨t, ht, answer, heq⟩

private theorem carefully_of_trials {trials : List Trial}
    (htrials : ∀ t ∈ trials, ∀ b, t.request ≠ .deleteBucket b)
    (h : Leads Memory.Step m (trials.flatMap (·.said r c)) n) :
    Leads Carefully m (trials.flatMap (·.said r c)) n := by
  apply carefully_of_ne h
  intro e he c' b hquestion
  rcases mem_trials he with ⟨time, rfl⟩ | ⟨t, ht, answer, rfl⟩
  · cases hquestion
  · have hrequest : t.request = .deleteBucket b := by injection hquestion
    exact htrials t ht b hrequest

/-- What a trial does is what its last request does; the others leave the store as it was. -/
theorem Trial.leads {t : Trial} (ht : ∀ upload parts, t.request ≠ .completeUpload upload parts)
    (h : Leads Memory.Step m (t.said r c) n) :
    Leads (fun s e s' => m.Alike s ∧ s.Step e s') m (t.said r c) n ∧
      ∃ mid, m.Alike mid ∧ mid.answer t.request = (t.last, n) := by
  obtain ⟨mid, hfailed, hlast⟩ := leads_append.1 h
  obtain ⟨hkept, halike⟩ := hfailed.keeping (Alike.refl m) fun e he s s' hs hstep => by
    rcases Retry.mem_failed he with ⟨time, rfl⟩ | ⟨cause, -, rfl⟩
    · obtain rfl : s' = s := hstep
      exact hs
    · exact hs.trans (alike_of_answer_error_of_ne hstep ht)
  have hanswer := leads_singleton.1 hlast
  exact ⟨leads_append.2 ⟨mid, hkept, leads_singleton.2 ⟨halike, hanswer⟩⟩, mid, halike, hanswer⟩

end Trials

section Listing

/-- A listing changes nothing, and its pages are of what the bucket holds. -/
private theorem alike_of_listing {trials : List Trial}
    (hlists : ∀ t ∈ trials, ∃ marker, t.request = .listObjects bucket "" marker)
    (hobjects : m.buckets.get? bucket = some objects)
    (h : Leads Memory.Step m (trials.flatMap (·.said r c)) n) :
    m.Alike n ∧ ∀ marker found,
      c.exchange (.listObjects bucket "" marker) (.ok found) ∈ trials.flatMap (·.said r c) →
        found = page objects.entries m.pageSize "" marker := by
  obtain ⟨hkept, halike⟩ := h.keeping (Alike.refl m) fun e he s s' hs hstep => by
    rcases mem_trials he with ⟨time, rfl⟩ | ⟨t, ht, answer, rfl⟩
    · obtain rfl : s' = s := hstep
      exact hs
    · obtain ⟨request, failures, last⟩ := t
      obtain ⟨marker, rfl⟩ := hlists _ ht
      have hafter := alike_answer_listObjects s bucket "" marker
      rw [step_exchange.1 hstep] at hafter
      exact hs.trans hafter
  refine ⟨halike, fun marker found he => ?_⟩
  obtain ⟨s, s', hs, hstep⟩ := hkept.exists_of_mem he
  obtain ⟨held, hheld, hfound⟩ := listObjects_ok (congrArg Prod.fst (step_exchange.1 hstep))
  rw [hs.buckets, hobjects] at hheld
  obtain rfl := Option.some.inj hheld
  rw [hfound, hs.pageSize]

private theorem chain_of_listing {trials : List Trial} {marker : Option String} {size : Nat}
    (h : Listing bucket marker trials keys)
    (hpages : ∀ marker found,
      c.exchange (.listObjects bucket "" marker) (.ok found) ∈ trials.flatMap (·.said r c) →
        found = page objects.entries size "" marker) :
    Chain (· = objects) size "" marker keys := by
  have hlast : ∀ marker failures found,
      c.exchange (.listObjects bucket "" marker) (.ok found) ∈
        (⟨.listObjects bucket "" marker, failures, .ok found⟩ : Trial).said r c :=
    fun _ _ _ => List.mem_append_right _ (List.mem_singleton_self _)
  induction h with
  | last marker failures found ends =>
    obtain rfl := hpages marker found (by simp [hlast])
    exact .last rfl ends
  | next marker failures found onward advances trials keys rest ih =>
    obtain rfl := hpages marker found (by simp [hlast])
    exact .next rfl advances (ih fun marker found he => hpages marker found (by simp [he]))

/-- A listing that comes to its end names all keys. -/
private theorem keys_of_listing {trials : List Trial} (hsize : 0 < m.pageSize)
    (hlists : ∀ t ∈ trials, ∃ marker, t.request = .listObjects bucket "" marker)
    (hobjects : m.buckets.get? bucket = some objects) (hkeys : Listing bucket none trials keys)
    (h : Leads Memory.Step m (trials.flatMap (·.said r c)) n) : keys = objects.keys := by
  have hchain : Chain (· = objects) m.pageSize "" none keys :=
    chain_of_listing hkeys (alike_of_listing hlists hobjects h).2
  refine KeyMap.eq_keys hchain.increasing.1 fun key => ⟨fun hkey => ?_, fun hkey => ?_⟩
  · obtain ⟨-, _, rfl, hsome⟩ := hchain.held_of_mem hkey
    exact hsome
  · refine hchain.mem_of_lasting hsize (by simp) rfl ?_
    rintro _ rfl
    exact hkey

end Listing

namespace Depleted

theorem of_same (hobjects : m.buckets.get? bucket = some objects) : Depleted m bucket [] m :=
  ⟨⟨objects, objects, hobjects, hobjects, fun _ _ hbody => ⟨hbody, List.not_mem_nil⟩⟩,
    fun _ _ => rfl, rfl⟩

theorem of_alike (h : Depleted m bucket gone n) (hn : n.Alike n') : Depleted m bucket gone n' := by
  obtain ⟨objects, left, hobjects, hleft, hsub⟩ := h.left
  refine ⟨⟨objects, left, hobjects, ?_, hsub⟩, fun b hb => ?_, hn.uploads.trans h.uploads⟩
  · rw [hn.buckets, hleft]
  · rw [hn.buckets, h.others b hb]

theorem weaken (h : Depleted m bucket (gone ++ keys) n) : Depleted m bucket gone n := by
  obtain ⟨objects, left, hobjects, hleft, hsub⟩ := h.left
  refine ⟨⟨objects, left, hobjects, hleft, fun key body hbody => ?_⟩, h.others, h.uploads⟩
  obtain ⟨hheld, hgone⟩ := hsub key body hbody
  exact ⟨hheld, fun hkey => hgone (List.mem_append_left _ hkey)⟩

theorem deleted {result : ObjectStore.DeleteResult} (h : Depleted m bucket gone n)
    (hanswer : n.answer (.deleteObjects bucket keys) = (.ok result, n')) :
    Depleted m bucket (gone ++ keys) n' := by
  obtain ⟨objects, left, hobjects, hleft, hsub⟩ := h.left
  obtain ⟨left', hleft', hbuckets, huploads⟩ := deleteObjects_ok hanswer
  obtain rfl := Option.some.inj (hleft.symm.trans hleft')
  refine ⟨⟨objects, left.eraseAll keys, hobjects, ?_, fun key body hbody => ?_⟩, fun b hb => ?_,
    huploads.trans h.uploads⟩
  · rw [hbuckets, KeyMap.get?_insert_self]
  · rw [KeyMap.get?_eraseAll] at hbody
    split at hbody
    · exact absurd hbody (by simp)
    · rename_i hkept
      obtain ⟨hheld, hgone⟩ := hsub key body hbody
      exact ⟨hheld, by simp [hgone, hkept]⟩
  · rw [hbuckets, KeyMap.get?_insert_of_ne hb, h.others b hb]

/-- Nothing is left if all keys are gone. -/
theorem get?_eq_empty (h : Depleted m bucket gone n)
    (hobjects : m.buckets.get? bucket = some objects)
    (hgone : ∀ key ∈ objects.keys, key ∈ gone) : n.buckets.get? bucket = some ∅ := by
  obtain ⟨objects', left, hobjects', hleft, hsub⟩ := h.left
  obtain rfl := Option.some.inj (hobjects.symm.trans hobjects')
  have hempty : left = ∅ := by
    refine KeyMap.ext_get? fun key => ?_
    cases hbody : left.get? key with
    | none => rfl
    | some body =>
      obtain ⟨hheld, hkey⟩ := hsub key body hbody
      exact absurd (hgone key (KeyMap.mem_keys.2 (by rw [hheld]; rfl))) hkey
  rw [hleft, hempty]

/-- What deletions leave, and what they leave if all of them delete what they are to. -/
theorem deletions {ds : List Deletion} (h : Depleted m bucket gone n)
    (hn : Leads Memory.Step n ((ds.map (·.trial bucket)).flatMap (·.said r c)) n') :
    Depleted m bucket gone n' ∧
      ((∀ d ∈ ds, d.Clean) → Depleted m bucket (gone ++ ds.flatMap (·.keys)) n') := by
  induction ds generalizing gone n with
  | nil =>
    obtain rfl := leads_nil.1 hn
    exact ⟨h, fun _ => by simpa using h⟩
  | cons d ds ih =>
    rw [List.map_cons, List.flatMap_cons] at hn
    obtain ⟨first, hfirst, hrest⟩ := leads_append.1 hn
    obtain ⟨-, mid, halike, hanswer⟩ := Trial.leads (by simp [Deletion.trial]) hfirst
    have hmid := h.of_alike halike
    obtain ⟨batch, failures, last⟩ := d
    cases last with
    | error e =>
      have hfailed := alike_of_answer_error_of_ne hanswer (by simp [Deletion.trial])
      refine ⟨(ih (hmid.of_alike hfailed) hrest).1, fun hclean => ?_⟩
      obtain ⟨result, hresult, -⟩ := hclean _ List.mem_cons_self
      exact absurd hresult (by simp)
    | ok result =>
      have hdeleted := hmid.deleted hanswer
      refine ⟨(ih hdeleted.weaken hrest).1, fun hclean => ?_⟩
      rw [List.flatMap_cons, ← List.append_assoc]
      exact (ih hdeleted hrest).2 (List.forall_mem_cons.1 hclean).2

end Depleted

namespace Stages.Ordered
variable {st : Stages} {key : String} {result : Option (Except Error Removed)}

/-- The keys that were listed are all there are, and no bucket is asked to be deleted before they
are. -/
private theorem leads_deletions (ho : st.Ordered p bucket result) (hsize : 0 < m.pageSize)
    (hobjects : m.buckets.get? bucket = some objects)
    (h : Leads Memory.Step m
      ((st.listing ++ st.deletions.map (·.trial bucket)).flatMap (·.said r c)) n) :
    Leads Carefully m
        ((st.listing ++ st.deletions.map (·.trial bucket)).flatMap (·.said r c)) n ∧
      (∀ keys, st.keys = some keys → keys = objects.keys) ∧ Depleted m bucket [] n ∧
      (st.removal.isSome → n.buckets.get? bucket = some ∅) := by
  refine ⟨carefully_of_trials (fun t ht b => ?_) h, ?_⟩
  · rcases List.mem_append.1 ht with hlist | hdelete
    · obtain ⟨marker, hrequest⟩ := ho.lists t hlist
      simp [hrequest]
    · obtain ⟨d, -, rfl⟩ := List.mem_map.1 hdelete
      simp [Deletion.trial]
  rw [List.flatMap_append] at h
  obtain ⟨listed, hlisting, hdeletions⟩ := leads_append.1 h
  have hkeys : ∀ keys, st.keys = some keys → keys = objects.keys := fun keys hkeys =>
    keys_of_listing hsize ho.lists hobjects (ho.listed keys hkeys) hlisting
  have hlisted : Depleted m bucket [] listed :=
    (Depleted.of_same hobjects).of_alike (alike_of_listing ho.lists hobjects hlisting).1
  obtain ⟨hleft, hclean⟩ := hlisted.deletions hdeletions
  refine ⟨hkeys, hleft, fun hremoval => ?_⟩
  refine (hclean (ho.clean_of_removal hremoval)).get?_eq_empty hobjects fun key hkey => ?_
  cases hlist : st.keys with
  | none =>
    obtain ⟨-, hnone, -⟩ := ho.unlisted hlist
    rw [hnone] at hremoval
    exact absurd hremoval (by simp)
  | some keys =>
    obtain ⟨bs, hbatched, -, hall⟩ := ho.batches keys hlist
    rw [List.nil_append, List.flatMap, hall hremoval, hbatched.flatten_eq, hkeys keys hlist]
    exact hkey

/-- A bucket that is empty is deleted by a trial, or is as it was. -/
private theorem leads_deleteBucket {failures : List ObjectStore.Error}
    {last : Except ObjectStore.Error Unit} (hn : Depleted m bucket [] n)
    (hempty : n.buckets.get? bucket = some ∅)
    (h : Leads Memory.Step n ((⟨.deleteBucket bucket, failures, last⟩ : Trial).said r c) n') :
    Leads Carefully n ((⟨.deleteBucket bucket, failures, last⟩ : Trial).said r c) n' ∧
      (last = .ok () → n'.buckets = m.buckets.erase bucket ∧ n'.uploads = m.uploads) ∧
      (last ≠ .ok () → Depleted m bucket [] n') := by
  obtain ⟨hkept, mid, halike, hanswer⟩ := Trial.leads (by simp) h
  have hmid := hn.of_alike halike
  refine ⟨hkept.mono fun e he s s' hs => ⟨?_, hs.2⟩, ?_, fun hlast => ?_⟩
  · intro c' b hquestion
    rcases Retry.mem_tried he with ⟨time, rfl⟩ | ⟨answer, rfl, -⟩
    · cases hquestion
    · cases hquestion
      rw [hs.1.buckets, hempty]
  · rintro rfl
    obtain ⟨hbuckets, huploads⟩ := deleteBucket_ok hanswer
    refine ⟨KeyMap.ext_get? fun b => ?_, huploads.trans hmid.uploads⟩
    rw [hbuckets, KeyMap.get?_erase, KeyMap.get?_erase]
    split
    · rfl
    · rename_i hb
      exact hmid.others b hb
  · cases last with
    | ok value => exact absurd rfl hlast
    | error e => exact hmid.of_alike (alike_of_answer_error_of_ne hanswer (by simp))

private theorem leads_removal
    {removal : Option (List ObjectStore.Error × Except ObjectStore.Error Unit)}
    (hn : Depleted m bucket [] n) (hempty : removal.isSome → n.buckets.get? bucket = some ∅)
    (h : Leads Memory.Step n ((removal.toList.map fun (failures, last) =>
      (⟨.deleteBucket bucket, failures, last⟩ : Trial)).flatMap (·.said r c)) n') :
    Leads Carefully n ((removal.toList.map fun (failures, last) =>
        (⟨.deleteBucket bucket, failures, last⟩ : Trial)).flatMap (·.said r c)) n' ∧
      ((∃ failures, removal = some (failures, .ok ())) →
        n'.buckets = m.buckets.erase bucket ∧ n'.uploads = m.uploads) ∧
      ((¬∃ failures, removal = some (failures, .ok ())) → Depleted m bucket [] n') := by
  rcases removal with _ | ⟨failures, last⟩
  · obtain rfl := leads_nil.1 h
    exact ⟨.nil _, by simp, fun _ => hn⟩
  · simp only [Option.toList_some, List.map_cons, List.map_nil, List.flatMap_singleton] at h ⊢
    obtain ⟨hkept, hdone, hfailed⟩ := leads_deleteBucket hn (hempty rfl) h
    refine ⟨hkept, ?_, fun hlast => hfailed fun heq => hlast ⟨failures, by rw [heq]⟩⟩
    rintro ⟨_, heq⟩
    exact hdone (Prod.mk.inj (Option.some.inj heq)).2

/-- The secret does not concern the store. -/
private theorem leads_secret {secret : Option (Except Secrets.Error Bool)}
    (h : Leads Memory.Step n (secret.toList.map fun answer => ⟨.deleteSecret key, answer⟩) n') :
    Leads Carefully n (secret.toList.map fun answer => ⟨.deleteSecret key, answer⟩) n' ∧
      n' = n := by
  constructor
  · apply carefully_of_ne h
    intro e he c b hquestion
    obtain ⟨answer, -, rfl⟩ := List.mem_map.1 he
    cases hquestion
  · apply h.eq_of_idle
    intro e he s s' hstep
    obtain ⟨answer, -, rfl⟩ := List.mem_map.1 he
    exact hstep

/-- What the stages of a teardown do to a store in memory. -/
theorem leads (ho : st.Ordered p bucket result) (hsize : 0 < m.pageSize)
    (hobjects : m.buckets.get? bucket = some objects)
    (h : Leads Memory.Step m (st.said p.retry c bucket key) n) :
    Leads Carefully m (st.said p.retry c bucket key) n ∧
      (∀ keys, st.keys = some keys → keys = objects.keys) ∧
      ((∃ failures, st.removal = some (failures, .ok ())) →
        n.buckets = m.buckets.erase bucket ∧ n.uploads = m.uploads) ∧
      ((¬∃ failures, st.removal = some (failures, .ok ())) → Depleted m bucket [] n) := by
  rw [Stages.said, Stages.trials, List.flatMap_append] at h ⊢
  obtain ⟨removed, hremoved, hsecret⟩ := leads_append.1 h
  obtain ⟨deleted, hdeletions, hremoval⟩ := leads_append.1 hremoved
  obtain ⟨hearly, hkeys, hleft, hempty⟩ := ho.leads_deletions hsize hobjects hdeletions
  obtain ⟨hlate, rfl⟩ := leads_secret hsecret
  obtain ⟨hmid, hdone, hfailed⟩ := leads_removal hleft hempty hremoval
  exact ⟨leads_append.2 ⟨n, leads_append.2 ⟨deleted, hearly, hmid⟩, hlate⟩, hkeys, hdone, hfailed⟩

section Secret
variable {k k' : Keeper}

/-- A keeper is asked for the secret and for nothing else. -/
theorem leads_keeper (h : Leads Keeper.Step k (st.said r c bucket key) k') :
    (st.secret = none → k' = k) ∧ ∀ answer, st.secret = some answer → k.Deletes key answer k' := by
  obtain ⟨mid, htrials, hsecret⟩ := leads_append.1 h
  obtain rfl : mid = k := by
    apply htrials.eq_of_idle
    intro e he s s' hstep
    rcases mem_trials he with ⟨time, rfl⟩ | ⟨t, -, answer, rfl⟩
    · exact hstep
    · exact hstep
  constructor
  · intro hnone
    rw [hnone] at hsecret
    exact leads_nil.1 hsecret
  · intro answer hsome
    rw [hsome] at hsecret
    exact leads_singleton.1 hsecret

/-- The secret goes with the bucket, if it is to. -/
theorem secret_of_succeeded {removed : Removed} (ho : st.Ordered p bucket result)
    (hresult : result = some (.ok removed))
    (h : Leads Keeper.Step k (st.said r c bucket key) k') :
    removed.secret = (p.deleteSecret && k.secrets.contains key) ∧
      k'.secrets = if p.deleteSecret then k.secrets.erase key else k.secrets := by
  obtain ⟨hkept, hdeleted⟩ := leads_keeper h
  obtain ⟨-, -, hasked⟩ := ho.succeeded removed hresult
  split at hasked
  · rename_i hdelete
    rcases (hdeleted _ hasked).deleted_or_kept with ⟨hthere, hsecrets⟩ | ⟨⟨e, herror⟩, -⟩
    · constructor
      · rw [hdelete, Bool.true_and, Except.ok.inj hthere]
      · rw [if_pos hdelete, hsecrets]
    · exact absurd herror (by simp)
  · rename_i hkeep
    obtain ⟨hnone, hfalse⟩ := hasked
    constructor
    · rw [hfalse, Bool.eq_false_iff.2 hkeep, Bool.false_and]
    · rw [if_neg hkeep, hkept hnone]

/-- The secret stays if the bucket does. -/
theorem kept_of_not_removed (ho : st.Ordered p bucket result)
    (hnot : ¬∃ failures, st.removal = some (failures, .ok ()))
    (h : Leads Keeper.Step k (st.said r c bucket key) k') : k' = k := by
  apply (leads_keeper h).1
  cases hsecret : st.secret with
  | none => rfl
  | some answer =>
    obtain ⟨-, hremoved⟩ := ho.removed_of_secret (by rw [hsecret]; rfl)
    exact absurd hremoved hnot

end Secret

end Stages.Ordered

section Outcome
variable {kept : Clients} {k k' : Keeper}

/-- Getting a client concerns neither a store nor a keeper. -/
private theorem leads_obtained {endpoint : String} {found : Except ObjectStore.Error Client}
    (h : Clients.Obtained kept endpoint said found) (hm : Leads Memory.Step m said n)
    (hk : Leads Keeper.Step k said k') : Leads Carefully m said n ∧ n = m ∧ k' = k := by
  refine ⟨carefully_of_ne hm fun e he c b hquestion => ?_, h.eq_of_leads hm fun _ _ h => h,
    h.eq_of_leads hk fun _ _ h => h⟩
  obtain rfl := h.eq_of_mem he
  cases hquestion

private theorem emptied_of_carefully {before after : List (Exchange World)} {e : Exchange World}
    (h : Leads Carefully m (before ++ e :: after) n') (hn : Leads Memory.Step m before n) :
    Emptied n e := by
  obtain ⟨mid, hbefore, hrest⟩ := leads_append.1 h
  obtain ⟨_, ⟨hemptied, -⟩, -⟩ := leads_cons.1 hrest
  have hmid : Leads Memory.Step m before mid := hbefore.mono fun _ _ _ _ hstep => hstep.2
  obtain rfl := hmid.unique hn fun _ _ _ _ => Step.unique
  exact hemptied

/-- A bucket is asked to be deleted only when it is empty. A teardown that succeeds takes away the
bucket with all its objects, and the secret if it goes with it; one that fails before it comes to
the secret leaves the bucket with some of its objects, and the secrets as they were. -/
theorem Provisioner.runs_deprovision_of_memory {p : Provisioner} {pages : Nat}
    {r : Bucket.Provisioned} {result : Option (Except Error Removed × Clients)}
    (h : (p.deprovision pages r).Runs kept said result) (hsize : 0 < m.pageSize)
    (hobjects : m.buckets.get? r.descriptor.bucketName = some objects)
    (hm : Leads Memory.Step m said n) (hk : Leads Keeper.Step k said k') :
    (∀ before c b reply after n,
      said = before ++ Client.exchange c (.deleteBucket b) reply :: after →
        Leads Memory.Step m before n →
          n.buckets.get? b = some ∅ ∧ (n.effect (.deleteBucket b)).1 = .ok ()) ∧
    (∀ removed, result.map Prod.fst = some (.ok removed) →
      removed.objects = objects.size ∧
        removed.secret = (p.deleteSecret && k.secrets.contains r.secretKey) ∧
        n.buckets = m.buckets.erase r.descriptor.bucketName ∧ n.uploads = m.uploads ∧
        k'.secrets = if p.deleteSecret then k.secrets.erase r.secretKey else k.secrets) ∧
    ∀ e, result.map Prod.fst = some (.error e) → (∀ cause, e ≠ .secret cause) →
      Depleted m r.descriptor.bucketName [] n ∧ k'.secrets = k.secrets := by
  obtain ⟨opening, found, rest, rfl, hfound, hrest⟩ := runs_deprovision h
  obtain ⟨first, hopening, hlater⟩ := leads_append.1 hm
  obtain ⟨keeper, hidle, hsecret⟩ := leads_append.1 hk
  obtain ⟨hfirst, rfl, rfl⟩ := leads_obtained hfound hopening hidle
  have hempty : Leads Carefully first rest n →
      ∀ before c b reply after n',
        opening ++ rest = before ++ Client.exchange c (.deleteBucket b) reply :: after →
        Leads Memory.Step first before n' →
          n'.buckets.get? b = some ∅ ∧ (n'.effect (.deleteBucket b)).1 = .ok () := by
    intro hrest before c b reply after n' heq hbefore
    have hall := leads_append.2 ⟨first, hfirst, hrest⟩
    rw [heq] at hall
    have hbucket := emptied_of_carefully hall hbefore c b rfl
    exact ⟨hbucket, effect_deleteBucket hbucket⟩
  cases found with
  | error cause =>
    obtain ⟨rfl, hresult⟩ := hrest
    obtain rfl := leads_nil.1 hlater
    obtain rfl := leads_nil.1 hsecret
    refine ⟨hempty (.nil _), fun removed heq => ?_, fun e _ _ => ⟨?_, rfl⟩⟩
    · exact absurd (hresult.symm.trans heq) (by simp)
    · exact .of_same hobjects
  | ok c =>
    obtain ⟨st, rfl, hordered, hlast⟩ := hrest
    obtain ⟨hcareful, hkeys, hdone, hfailed⟩ := hordered.leads hsize hobjects hlater
    refine ⟨hempty hcareful, fun removed heq => ?_, fun e heq hother => ?_⟩
    · obtain ⟨⟨keys, hlisted, hcount⟩, hremoval, -⟩ := hordered.succeeded removed heq
      obtain ⟨hbuckets, huploads⟩ := hdone hremoval
      obtain ⟨hthere, hsecrets⟩ := hordered.secret_of_succeeded heq hsecret
      rw [hkeys keys hlisted] at hcount
      exact ⟨hcount.trans (List.length_map _), hthere, hbuckets, huploads, hsecrets⟩
    · have hnot : ¬∃ failures, st.removal = some (failures, .ok ()) := by
        rintro ⟨failures, hremoval⟩
        obtain ⟨cause, hcause⟩ := hlast e failures heq hremoval
        exact hother cause hcause
      exact ⟨hfailed hnot, by rw [hordered.kept_of_not_removed hnot hsecret]⟩

/-- Two objects on a page each, the first of which is asked for twice. -/
theorem Provisioner.runs_deprovision_of_two :
    let m := ((Memory.withPages "memory://obs" 1).seed "b" [("a", [1]), ("c", [2])]).withFault
      { operation := .listObjects, error := .transport "reset", times := some 1 }
    let p : Provisioner := ⟨.every 2 10, 900, true⟩
    let r := Bucket.Provisioned.ofDescriptor ⟨"r1", "t1", "b", "memory://obs", ""⟩ "k"
    let secrets := (∅ : Secrets).insert "k" "v"
    ∃ said n k' kept, (p.deprovision 2 r).Runs ∅ said (some (.ok ⟨"r1", 2, true⟩, kept)) ∧
      Leads Memory.Step m said n ∧ Leads Keeper.Step (.memory secrets) said k' ∧
      n.buckets = m.buckets.erase "b" ∧ k'.secrets = secrets.erase "k" := by
  intro m p r secrets
  let w : Rehearsal InMemory := { services := { store := m, issuer := {}, secrets } }
  have hremoved : (Rehearsal.play ((p.deprovision 2 r).run ∅) w).1.bind (·.1.toOption) =
      some ⟨"r1", 2, true⟩ := by decide +kernel
  rcases hplay : Rehearsal.play ((p.deprovision 2 r).run ∅) w with ⟨_ | ⟨_ | removed, kept⟩, last⟩
  · rw [hplay] at hremoved
    exact absurd hremoved (by simp)
  · rw [hplay] at hremoved
    exact absurd hremoved (by simp [Except.toOption])
  · rw [hplay] at hremoved
    obtain rfl : removed = ⟨"r1", 2, true⟩ := Option.some.inj hremoved
    obtain ⟨said, hruns, hsaid⟩ := Rehearsal.play_eq_some_iff.1 hplay
    obtain ⟨hm, hk⟩ := InMemory.leads_of_answers hsaid
    obtain ⟨-, hdone, -⟩ := runs_deprovision_of_memory hruns (by decide) rfl hm hk
    obtain ⟨-, -, hbuckets, -, hsecrets⟩ := hdone _ rfl
    exact ⟨said, _, _, kept, hruns, hm, hk, hbuckets, hsecrets⟩

end Outcome

end BucketTransfer.Provision
