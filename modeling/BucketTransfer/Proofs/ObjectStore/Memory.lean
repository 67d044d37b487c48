import BucketTransfer.ObjectStore.Memory
import BucketTransfer.Proofs.KeyMap.Lookup

/-!
# Calls to a store in memory

What a call changes: its log and its faults always, and what the store holds only if the call
passes the faults. A call that fails leaves what the store holds as it was, but for a completion
whose bucket is gone.
-/
namespace BucketTransfer.ObjectStore

theorem Fault.mem_meet {operation : Operation} {faults : List Fault} {f : Fault}
    (h : f ∈ (Fault.meet operation faults).2) : ∃ g ∈ faults, g.operation = f.operation := by
  induction faults with
  | nil => simp [Fault.meet] at h
  | cons g rest ih =>
    have hrest : f ∈ rest → ∃ g' ∈ g :: rest, g'.operation = f.operation :=
      fun hf => ⟨f, List.mem_cons_of_mem g hf, rfl⟩
    have hhead : f.operation = g.operation → ∃ g' ∈ g :: rest, g'.operation = f.operation :=
      fun hf => ⟨g, List.mem_cons_self, hf.symm⟩
    simp only [Fault.meet] at h
    split at h
    · split at h
      · rcases List.mem_cons.1 h with rfl | hf
        · exact hhead rfl
        · exact hrest hf
      · split at h
        · rcases List.mem_cons.1 h with rfl | hf
          · exact hhead rfl
          · exact hrest hf
        · split at h
          · exact hrest h
          · rcases List.mem_cons.1 h with rfl | hf
            · exact hhead rfl
            · exact hrest hf
    · rcases List.mem_cons.1 h with rfl | hf
      · exact hhead rfl
      · obtain ⟨g', hg', heq⟩ := ih hf
        exact ⟨g', List.mem_cons_of_mem g hg', heq⟩

theorem Fault.meet_eq_none {operation : Operation} {faults : List Fault}
    (h : ∀ f ∈ faults, f.operation ≠ operation) :
    Fault.meet operation faults = (none, faults) := by
  induction faults with
  | nil => rfl
  | cons f rest ih =>
    obtain ⟨hf, hrest⟩ := List.forall_mem_cons.1 h
    rw [Fault.meet, if_neg hf, ih hrest]

namespace Memory

/-- The store once a call was logged and has met the faults, before it has an effect. -/
def entered (m : Memory) (r : Request) : Memory :=
  { m with calls := r.call :: m.calls, faults := (Fault.meet r.operation m.faults).2 }

/-- No call of an operation meets a fault. -/
def Unhindered (m : Memory) (operation : Operation) : Prop :=
  ∀ f ∈ m.faults, f.operation ≠ operation

/-- A store that holds the same as another one; the two may differ in their logs and faults. -/
structure Alike (m n : Memory) : Prop where
  buckets : n.buckets = m.buckets
  uploads : n.uploads = m.uploads
  started : n.started = m.started
  pageSize : n.pageSize = m.pageSize

variable {m n m' : Memory} {r : Request}

@[refl] theorem Alike.refl (m : Memory) : m.Alike m := ⟨rfl, rfl, rfl, rfl⟩

theorem Alike.trans {l : Memory} (h : l.Alike m) (h' : m.Alike n) : l.Alike n :=
  ⟨h'.buckets.trans h.buckets, h'.uploads.trans h.uploads, h'.started.trans h.started,
    h'.pageSize.trans h.pageSize⟩

theorem answer_of_passed (h : (Fault.meet r.operation m.faults).1 = none) :
    m.answer r = (m.entered r).effect r := by
  simp only [answer, entered]
  split
  · rename_i heq
    rw [heq] at h
    exact absurd h (by simp)
  · rename_i heq
    rw [heq]

theorem answer_of_fault {e : Error} (h : (Fault.meet r.operation m.faults).1 = some e) :
    m.answer r = (.error e, m.entered r) := by
  simp only [answer, entered]
  split
  · rename_i heq
    rw [heq] at h
    rw [heq, Option.some.inj h]
  · rename_i heq
    rw [heq] at h
    exact absurd h (by simp)

/-- A call keeps what holds once it is logged and is kept by its effect. -/
theorem keeps_answer {P : Memory → Prop} (h : P (m.entered r))
    (heffect : P (m.entered r) → P ((m.entered r).effect r).2) : P (m.answer r).2 := by
  cases hfault : (Fault.meet r.operation m.faults).1 with
  | none =>
    rw [answer_of_passed hfault]
    exact heffect h
  | some e =>
    rw [answer_of_fault hfault]
    exact h

/-- A call meets a fault or has its effect, on a store that holds the same. -/
theorem answer_cases (m : Memory) (r : Request) :
    ∃ n, m.Alike n ∧ n.faults = (Fault.meet r.operation m.faults).2 ∧
      ((∃ e, m.answer r = (.error e, n)) ∨ m.answer r = n.effect r) := by
  simp only [answer]
  rcases Fault.meet r.operation m.faults with ⟨_ | e, faults⟩
  · exact ⟨{ m with calls := r.call :: m.calls, faults }, ⟨rfl, rfl, rfl, rfl⟩, rfl, .inr rfl⟩
  · exact ⟨{ m with calls := r.call :: m.calls, faults }, ⟨rfl, rfl, rfl, rfl⟩, rfl, .inl ⟨e, rfl⟩⟩

theorem answer_of_unhindered (h : m.Unhindered r.operation) :
    m.answer r = effect { m with calls := r.call :: m.calls } r := by
  simp only [answer, Fault.meet_eq_none h]

/-- What a store holds under a key. -/
theorem object?_eq_some {bucket key : String} {body : Bytes} :
    m.object? bucket key = some body ↔
      ∃ objects, m.buckets.get? bucket = some objects ∧ objects.get? key = some body :=
  Option.bind_eq_some_iff

/-- What is held after an object was put into a bucket. -/
theorem object?_of_insert {bucket key : String} {objects : KeyMap Bytes} {body : Bytes}
    (hheld : m.buckets.get? bucket = some objects)
    (hbuckets : n.buckets = m.buckets.insert bucket (objects.insert key body)) (b k : String) :
    n.object? b k = if b = bucket ∧ k = key then some body else m.object? b k := by
  rw [object?, hbuckets, KeyMap.get?_insert]
  by_cases hb : b = bucket
  · subst hb
    rw [if_pos rfl, Option.bind_some, KeyMap.get?_insert, object?, hheld, Option.bind_some]
    simp
  · rw [if_neg hb, if_neg (fun hbk => hb hbk.1), object?]

theorem faults_effect (m : Memory) (r : Request) : (m.effect r).2.faults = m.faults := by
  cases r <;> simp only [effect] <;> repeat' split
  all_goals rfl

theorem unhindered_answer {operation : Operation} (h : m.Unhindered operation) (r : Request) :
    (m.answer r).2.Unhindered operation := by
  intro f hf
  obtain ⟨n, -, hfaults, ⟨e, heq⟩ | heq⟩ := m.answer_cases r
  · rw [heq, hfaults] at hf
    obtain ⟨g, hg, hop⟩ := Fault.mem_meet hf
    exact hop ▸ h g hg
  · rw [heq, faults_effect, hfaults] at hf
    obtain ⟨g, hg, hop⟩ := Fault.mem_meet hf
    exact hop ▸ h g hg

theorem pageSize_effect (m : Memory) (r : Request) : (m.effect r).2.pageSize = m.pageSize := by
  cases r <;> simp only [effect] <;> repeat' split
  all_goals rfl

theorem pageSize_answer (m : Memory) (r : Request) : (m.answer r).2.pageSize = m.pageSize := by
  obtain ⟨n, halike, -, ⟨e, heq⟩ | heq⟩ := m.answer_cases r
  · rw [heq, halike.pageSize]
  · rw [heq, pageSize_effect, halike.pageSize]

theorem calls_effect (m : Memory) (r : Request) : (m.effect r).2.calls = m.calls := by
  cases r <;> simp only [effect] <;> repeat' split
  all_goals rfl

/-- Every call is logged, whether it fails or not. -/
theorem calls_answer (m : Memory) (r : Request) : (m.answer r).2.calls = r.call :: m.calls := by
  simp only [answer]
  rcases Fault.meet r.operation m.faults with ⟨_ | e, faults⟩
  · exact calls_effect _ r
  · rfl

/-- A success is that of the effect. -/
theorem exists_effect_of_answer_ok {reply : r.Reply} (h : m.answer r = (.ok reply, m')) :
    ∃ n, m.Alike n ∧ n.effect r = (.ok reply, m') := by
  obtain ⟨n, halike, -, ⟨e, heq⟩ | heq⟩ := m.answer_cases r
  · exact absurd (congrArg Prod.fst (heq.symm.trans h)) (by simp)
  · exact ⟨n, halike, heq.symm.trans h⟩

/-- What fails has no effect, but for the completion of an upload whose bucket is gone: then the
upload is gone, too. -/
theorem effect_error {e : Error} (h : m.effect r = (.error e, m')) :
    m' = m ∨ ∃ upload parts body, r = .completeUpload upload parts ∧
      m.content upload parts = .ok body ∧ m.buckets.get? upload.bucket = none ∧
        e = noSuchBucket upload.bucket ∧ m' = { m with uploads := m.uploads.erase upload.id } := by
  cases r with
  | completeUpload upload parts =>
    simp only [effect] at h
    split at h
    · exact .inl (congrArg Prod.snd h).symm
    · rename_i body hbody
      split at h
      · rename_i hgone
        obtain ⟨he, hm⟩ := Prod.mk.inj h
        exact .inr ⟨upload, parts, body, rfl, hbody, hgone, (Except.error.inj he).symm, hm.symm⟩
      · exact absurd (congrArg Prod.fst h) (by simp)
  | close => exact absurd (congrArg Prod.fst h) (by simp [effect])
  | _ =>
    refine .inl ?_
    simp only [effect] at h
    repeat' split at h
    all_goals first
      | exact (congrArg Prod.snd h).symm
      | exact absurd (congrArg Prod.fst h) (by simp)

/-- A bucket stays unless it is deleted. -/
theorem isSome_bucket_effect {bucket : String} (h : (m.buckets.get? bucket).isSome)
    (hr : r ≠ .deleteBucket bucket) : ((m.effect r).2.buckets.get? bucket).isSome := by
  have hinsert : ∀ (b : String) (objects : KeyMap Bytes),
      ((m.buckets.insert b objects).get? bucket).isSome := by
    intro b objects
    rw [KeyMap.get?_insert]
    split
    · rfl
    · exact h
  cases r with
  | deleteBucket b =>
    have hne : bucket ≠ b := fun heq => hr (congrArg _ heq.symm)
    simp only [effect]
    repeat' split
    · exact h
    · simp only [KeyMap.get?_erase, if_neg hne]
      exact h
    · exact h
  | _ =>
    simp only [effect]
    repeat' split
    all_goals first
      | exact h
      | exact hinsert _ _

/-- An object stays, with this content or another, unless it is deleted. -/
theorem isSome_object?_effect {bucket key : String} (h : (m.object? bucket key).isSome)
    (hone : r.operation ≠ .deleteObject) (hbatch : r.operation ≠ .deleteObjects) :
    ((m.effect r).2.object? bucket key).isSome := by
  have hput : ∀ {b : String} {objects : KeyMap Bytes} (k : String) (body : Bytes) {n : Memory},
      m.buckets.get? b = some objects → n.buckets = m.buckets.insert b (objects.insert k body) →
        (n.object? bucket key).isSome := by
    intro b objects k body n hheld hbuckets
    rw [object?_of_insert hheld hbuckets]
    split
    · rfl
    · exact h
  cases r with
  | createBucket b =>
    simp only [effect]
    split
    · exact h
    · rename_i habsent
      have hne : bucket ≠ b := by
        rintro rfl
        obtain ⟨body, hbody⟩ := Option.isSome_iff_exists.1 h
        obtain ⟨objects, hobjects, -⟩ := object?_eq_some.1 hbody
        exact habsent (KeyMap.contains_eq_true.2 ⟨objects, hobjects⟩)
      rwa [object?, KeyMap.get?_insert_of_ne hne]
  | deleteBucket b =>
    simp only [effect]
    split
    · exact h
    · rename_i objects hobjects
      split
      · rename_i hempty
        have hne : bucket ≠ b := by
          rintro rfl
          obtain ⟨body, hbody⟩ := Option.isSome_iff_exists.1 h
          obtain ⟨held, hheld, hkey⟩ := object?_eq_some.1 hbody
          obtain rfl := Option.some.inj (hobjects.symm.trans hheld)
          have hmem := KeyMap.mem_entries (e := (key, body)).2 hkey
          rw [List.isEmpty_iff.1 hempty] at hmem
          exact absurd hmem List.not_mem_nil
        rwa [object?, KeyMap.get?_erase, if_neg hne]
      · exact h
  | putObject b k body =>
    simp only [effect]
    split
    · exact h
    · rename_i objects hobjects
      exact hput k body hobjects rfl
  | completeUpload upload parts =>
    simp only [effect]
    split
    · exact h
    · rename_i body _
      split
      · exact h
      · rename_i objects hobjects
        exact hput upload.key body hobjects rfl
  | deleteObject b k => exact absurd rfl hone
  | deleteObjects b keys => exact absurd rfl hbatch
  | _ =>
    simp only [effect]
    repeat' split
    all_goals exact h

/-- A call that fails leaves a store as it was, unless it completes an upload into a bucket that is
gone. -/
theorem alike_of_answer_error {e : Error} (h : m.answer r = (.error e, m')) :
    m.Alike m' ∨ ∃ upload parts, r = .completeUpload upload parts ∧
      m.buckets.get? upload.bucket = none := by
  obtain ⟨n, halike, -, ⟨e', heq⟩ | heq⟩ := m.answer_cases r
  · obtain rfl : n = m' := congrArg Prod.snd (heq.symm.trans h)
    exact .inl halike
  · rcases effect_error (heq.symm.trans h) with rfl | ⟨upload, parts, body, rfl, -, hnone, -⟩
    · exact .inl halike
    · rw [halike.buckets] at hnone
      exact .inr ⟨upload, parts, rfl, hnone⟩

theorem alike_of_answer_error_of_ne {e : Error} (h : m.answer r = (.error e, m'))
    (hr : ∀ upload parts, r ≠ .completeUpload upload parts) : m.Alike m' := by
  rcases alike_of_answer_error h with halike | ⟨upload, parts, heq, -⟩
  · exact halike
  · exact absurd heq (hr upload parts)

theorem alike_answer_getObject (m : Memory) (bucket key : String) :
    m.Alike (m.answer (.getObject bucket key)).2 := by
  obtain ⟨n, halike, -, ⟨e, heq⟩ | heq⟩ := m.answer_cases (.getObject bucket key)
  · rw [heq]
    exact halike
  · rw [heq]
    simp only [effect]
    repeat' split
    all_goals exact halike

/-- The name of the upload with a number. -/
def uploadId (number : Nat) : String := s!"upload-{number}"

theorem uploadId_inj {i j : Nat} (h : uploadId i = uploadId j) : i = j := by
  have hrepr : i.repr = j.repr := by simpa [uploadId, toString] using h
  rw [Nat.repr_eq_ofList_toDigits, Nat.repr_eq_ofList_toDigits] at hrepr
  have hdigits := congrArg (fun s => Nat.ofDigitChars 10 s.toList 0) hrepr
  simpa using hdigits

theorem initiate_ok {bucket key : String} {started : Upload}
    (h : m.answer (.initiateUpload bucket key) = (.ok started, m')) :
    started = ⟨bucket, key, uploadId (m.started + 1)⟩ ∧
      (∃ objects, m.buckets.get? bucket = some objects) ∧ m'.buckets = m.buckets ∧
      m'.started = m.started + 1 ∧
      m'.uploads = m.uploads.insert (uploadId (m.started + 1)) { bucket, key } := by
  obtain ⟨n, halike, heffect⟩ := exists_effect_of_answer_ok h
  simp only [effect] at heffect
  split at heffect
  · exact absurd (congrArg Prod.fst heffect) (by simp)
  · rename_i objects hbucket
    obtain ⟨hstarted, rfl⟩ := Prod.mk.inj heffect
    rw [halike.buckets] at hbucket
    refine ⟨?_, ⟨objects, hbucket⟩, halike.buckets, ?_, ?_⟩
    · rw [← Except.ok.inj hstarted, halike.started]
      rfl
    · simp only [halike.started]
    · simp only [halike.started, halike.uploads, uploadId]

theorem uploadPart_ok {part : PartUpload} {done : CompletedPart}
    (h : m.answer (.uploadPart part) = (.ok done, m')) :
    ∃ pending, m.uploads.get? part.uploadId = some pending ∧
      done = ⟨part.number, etagOf part.body⟩ ∧ m'.buckets = m.buckets ∧ m'.started = m.started ∧
      m'.uploads = m.uploads.insert part.uploadId
        { pending with parts := (part.number, part.body) :: pending.parts } := by
  obtain ⟨n, halike, heffect⟩ := exists_effect_of_answer_ok h
  simp only [effect] at heffect
  split at heffect
  · exact absurd (congrArg Prod.fst heffect) (by simp)
  · rename_i pending hpending
    obtain ⟨hdone, rfl⟩ := Prod.mk.inj heffect
    rw [halike.uploads] at hpending
    refine ⟨pending, hpending, (Except.ok.inj hdone).symm, halike.buckets, halike.started, ?_⟩
    simp only [halike.uploads]

theorem content_congr (h : m.Alike n) (upload : Upload) (parts : List CompletedPart) :
    n.content upload parts = m.content upload parts := by
  simp only [content, h.uploads]

theorem content_eq_ok {upload : Upload} {parts : List CompletedPart} {body : Bytes} :
    m.content upload parts = .ok body ↔
      ∃ pending, m.uploads.get? upload.id = some pending ∧ pending.bucket = upload.bucket ∧
        pending.key = upload.key ∧ parts ≠ [] ∧ ascending parts = true ∧
          assemble pending parts = .ok body := by
  rw [content]
  constructor
  · intro h
    split at h
    · cases h
    · rename_i pending hpending
      split at h
      · cases h
      · rename_i hsame
        split at h
        · cases h
        · rename_i hsome
          split at h
          · cases h
          · rename_i hascending
            rw [not_or, not_not, not_not] at hsame
            exact ⟨pending, hpending, hsame.1, hsame.2, by simpa using hsome,
              by simpa using hascending, h⟩
  · rintro ⟨pending, hpending, hbucket, hkey, hsome, hascending, hassemble⟩
    have hempty : parts.isEmpty = false := by simpa using hsome
    simpa [hpending, hbucket, hkey, hempty, hascending] using hassemble

theorem completeUpload_eq_ok {upload : Upload} {parts : List CompletedPart}
    (h : (Fault.meet .completeUpload m.faults).1 = none) :
    (m.answer (.completeUpload upload parts)).1 = .ok () ↔
      (∃ body, m.content upload parts = .ok body) ∧ (m.buckets.get? upload.bucket).isSome := by
  have hcontent : (m.entered (.completeUpload upload parts)).content upload parts =
      m.content upload parts := rfl
  have hbuckets : (m.entered (.completeUpload upload parts)).buckets = m.buckets := rfl
  rw [answer_of_passed (r := .completeUpload upload parts) h, effect, hcontent]
  cases m.content upload parts with
  | error cause => simp
  | ok body =>
    simp only [hbuckets]
    cases m.buckets.get? upload.bucket with
    | none => simp
    | some objects => simp

theorem complete_ok {upload : Upload} {parts : List CompletedPart}
    (h : m.answer (.completeUpload upload parts) = (.ok (), m')) :
    ∃ body objects, m.content upload parts = .ok body ∧
      m.buckets.get? upload.bucket = some objects ∧
      m'.buckets = m.buckets.insert upload.bucket (objects.insert upload.key body) ∧
      m'.started = m.started ∧ m'.uploads = m.uploads.erase upload.id := by
  obtain ⟨n, halike, heffect⟩ := exists_effect_of_answer_ok h
  simp only [effect, content_congr halike, halike.buckets] at heffect
  split at heffect
  · exact absurd (congrArg Prod.fst heffect) (by simp)
  · rename_i body hbody
    split at heffect
    · exact absurd (congrArg Prod.fst heffect) (by simp)
    · rename_i objects hbucket
      obtain rfl := congrArg Prod.snd heffect
      refine ⟨body, objects, hbody, hbucket, rfl, halike.started, ?_⟩
      simp only [halike.uploads]

theorem abort_ok {upload : Upload} (h : m.answer (.abortUpload upload) = (.ok (), m')) :
    m'.buckets = m.buckets ∧ m'.started = m.started ∧
      m'.uploads = m.uploads.erase upload.id := by
  obtain ⟨n, halike, heffect⟩ := exists_effect_of_answer_ok h
  simp only [effect] at heffect
  split at heffect
  · obtain rfl := congrArg Prod.snd heffect
    refine ⟨halike.buckets, halike.started, ?_⟩
    simp only [halike.uploads]
  · exact absurd (congrArg Prod.fst heffect) (by simp)

theorem deleteObjects_ok {bucket : String} {keys : List String} {result : DeleteResult}
    (h : m.answer (.deleteObjects bucket keys) = (.ok result, m')) :
    ∃ objects, m.buckets.get? bucket = some objects ∧
      m'.buckets = m.buckets.insert bucket (objects.eraseAll keys) ∧ m'.uploads = m.uploads := by
  obtain ⟨n, halike, heffect⟩ := exists_effect_of_answer_ok h
  simp only [effect, halike.buckets] at heffect
  split at heffect
  · exact absurd (congrArg Prod.fst heffect) (by simp)
  · split at heffect
    · exact absurd (congrArg Prod.fst heffect) (by simp)
    · rename_i objects hobjects
      obtain rfl := congrArg Prod.snd heffect
      exact ⟨objects, hobjects, rfl, halike.uploads⟩

theorem deleteBucket_ok {bucket : String} (h : m.answer (.deleteBucket bucket) = (.ok (), m')) :
    m'.buckets = m.buckets.erase bucket ∧ m'.uploads = m.uploads := by
  obtain ⟨n, halike, heffect⟩ := exists_effect_of_answer_ok h
  simp only [effect, halike.buckets] at heffect
  split at heffect
  · exact absurd (congrArg Prod.fst heffect) (by simp)
  · split at heffect
    · obtain rfl := congrArg Prod.snd heffect
      exact ⟨rfl, halike.uploads⟩
    · exact absurd (congrArg Prod.fst heffect) (by simp)

/-- A bucket without objects can be deleted. -/
theorem effect_deleteBucket {bucket : String} (h : m.buckets.get? bucket = some ∅) :
    (m.effect (.deleteBucket bucket)).1 = .ok () := by
  simp only [effect, h]
  rfl

theorem initiate_of_unhindered {bucket key : String} (hfaults : m.Unhindered .initiateUpload)
    (hbucket : (m.buckets.get? bucket).isSome) :
    ∃ started, (m.answer (.initiateUpload bucket key)).1 = .ok started := by
  obtain ⟨objects, hobjects⟩ := Option.isSome_iff_exists.1 hbucket
  simp [answer_of_unhindered (r := .initiateUpload bucket key) hfaults, effect, hobjects]

theorem uploadPart_of_unhindered {part : PartUpload} {pending : Pending}
    (hfaults : m.Unhindered .uploadPart) (h : m.uploads.get? part.uploadId = some pending) :
    ∃ done, (m.answer (.uploadPart part)).1 = .ok done := by
  simp [answer_of_unhindered (r := .uploadPart part) hfaults, effect, h]

theorem complete_of_unhindered {upload : Upload} {parts : List CompletedPart} {body : Bytes}
    (hfaults : m.Unhindered .completeUpload) (h : m.content upload parts = .ok body)
    (hbucket : (m.buckets.get? upload.bucket).isSome) :
    (m.answer (.completeUpload upload parts)).1 = .ok () :=
  (completeUpload_eq_ok (congrArg Prod.fst (Fault.meet_eq_none hfaults))).2 ⟨⟨body, h⟩, hbucket⟩

theorem getObject_of_unhindered {bucket key : String} {body : Bytes}
    (hfaults : m.Unhindered .getObject) (h : m.object? bucket key = some body) :
    (m.answer (.getObject bucket key)).1 =
      .ok ⟨some body.length, some (plainEtag body), .ofBytes body⟩ := by
  obtain ⟨objects, hobjects, hbody⟩ := object?_eq_some.1 h
  simp [answer_of_unhindered (r := .getObject bucket key) hfaults, effect, hobjects, hbody]

theorem listObjects_of_unhindered {bucket keyPrefix : String} {marker : Option String}
    {objects : KeyMap Bytes} (hfaults : m.Unhindered .listObjects)
    (h : m.buckets.get? bucket = some objects) :
    (m.answer (.listObjects bucket keyPrefix marker)).1 =
        .ok (page objects.entries m.pageSize keyPrefix marker) ∧
      m.Alike (m.answer (.listObjects bucket keyPrefix marker)).2 := by
  simp only [answer_of_unhindered (r := .listObjects bucket keyPrefix marker) hfaults, effect, h]
  exact ⟨trivial, rfl, rfl, rfl, rfl⟩

/-- The buckets with one that is to be there; if it is already, it keeps what it holds. -/
def bucketsWith (m : Memory) (bucket : String) : KeyMap (KeyMap Bytes) :=
  m.buckets.insert bucket ((m.buckets.get? bucket).getD ∅)

theorem get?_bucketsWith (m : Memory) (bucket b : String) :
    (m.bucketsWith bucket).get? b =
      if b = bucket then some ((m.buckets.get? bucket).getD ∅) else m.buckets.get? b :=
  KeyMap.get?_insert ..

/-- A bucket is there once it was asked for; it is refused only because it was there already. -/
theorem createBucket_of_unhindered (hfaults : m.Unhindered .createBucket) (bucket : String) :
    (m.answer (.createBucket bucket)).2.buckets = m.bucketsWith bucket ∧
      ∀ e, (m.answer (.createBucket bucket)).1 = .error e →
        e.code? = some .bucketAlreadyOwnedByYou ∧ ¬e.isRetryable := by
  rw [answer_of_unhindered hfaults, effect]
  split
  · rename_i hcontains
    obtain ⟨objects, hobjects⟩ := KeyMap.contains_eq_true.1 hcontains
    refine ⟨?_, ?_⟩
    · rw [bucketsWith, hobjects, Option.getD_some, KeyMap.insert_of_get?_eq_some hobjects]
    · rintro _ ⟨⟩
      have hcode : Code.ofName "BucketAlreadyOwnedByYou" = .bucketAlreadyOwnedByYou := by decide
      simp [Error.ofCode, Error.code?, Error.isRetryable, hcode]
  · rename_i habsent
    refine ⟨?_, by simp⟩
    have hnone : m.buckets.get? bucket = none := by simpa [KeyMap.contains] using habsent
    rw [bucketsWith, hnone]
    rfl

/-- An upload that is pending can be aborted. -/
theorem abort_of_unhindered {upload : Upload} {pending : Pending}
    (hfaults : m.Unhindered .abortUpload) (h : m.uploads.get? upload.id = some pending) :
    (m.answer (.abortUpload upload)).1 = .ok () := by
  have hcontains : m.uploads.contains upload.id = true :=
    KeyMap.contains_eq_true.2 ⟨pending, h⟩
  rw [answer_of_unhindered hfaults, effect, if_pos hcontains]

end Memory

end BucketTransfer.ObjectStore
