import BucketTransfer.Proofs.Dialogue.Course
import BucketTransfer.Proofs.ObjectStore.Exchanges
import BucketTransfer.Proofs.ObjectStore.Pages
import BucketTransfer.Transfer.Source

/-!
# Stores seen through restricted clients

A client that allows only some operations is the store for these and nothing for the others: what
it is called for, one thing after the other, comes to the same as calling the store itself for what
is allowed. A client that may only put objects loses none and tells nothing about them.
-/
namespace BucketTransfer.ObjectStore

/-! ## Calls of a client -/

/-- Requests to one store. -/
abbrev Requests : Interface := ⟨Request, fun r => Except Error r.Reply⟩

/-- A page of a listing. -/
def fetchPage (bucket keyPrefix : String) (marker : Option String) :
    Dialogue Requests (Except Error Page) :=
  .question (I := Requests) (.listObjects bucket keyPrefix marker)

/-- The error of a listing that does not advance. -/
def stuckAt (bucket marker : String) : Error :=
  .invalidResponse s!"listing of {bucket} did not advance past marker {marker}"

/-- What a client can be called for: a request, or all pages of a listing. -/
inductive ClientCall where
  | request (r : Request)
  | listing (bucket keyPrefix : String)
  deriving DecidableEq, Repr

namespace ClientCall

/-- What is answered if the call succeeds. -/
abbrev Value : ClientCall → Type
  | request r => r.Reply
  | listing .. => List Summary

def operation : ClientCall → Operation
  | request r => r.operation
  | listing .. => .listObjects

/-- The requests of a call; a listing is cut off after some pages. -/
def dialogue (pages : Nat) : (c : ClientCall) → Dialogue Requests (Except Error c.Value)
  | request r => .question (I := Requests) r
  | listing bucket keyPrefix => listAll pages (fetchPage bucket keyPrefix) (stuckAt bucket)

end ClientCall

/-- A call and what it came to, unless it was cut off. -/
structure Outcome where
  call : ClientCall
  result : Option (Except Error call.Value)

/-- The call was refused: with status 403, for a missing permission, and not to be tried again. -/
def Outcome.Refused (o : Outcome) : Prop :=
  ∃ e, o.result = some (.error e) ∧ (∃ message, e = .service 403 .accessDenied message none) ∧
    e.reason = .accessDenied ∧ e.isRetryable = false

/-- One who answers requests, from a state that may change. -/
abbrev Answerer (σ : Type) : Type := (r : Request) → StateM σ (Except Error r.Reply)

variable {σ τ : Type}

def ClientCall.run (answer : Answerer σ) (pages : Nat) (c : ClientCall) (s : σ) :
    Option (Except Error c.Value) × σ := (c.dialogue pages).run (I := Requests) answer s

/-- Makes calls, one after the other. -/
def perform (answer : Answerer σ) (pages : Nat) : List ClientCall → σ → List Outcome × σ
  | [], s => ([], s)
  | c :: calls, s =>
    let (result, s) := c.run answer pages s
    let (others, s) := perform answer pages calls s
    (⟨c, result⟩ :: others, s)

/-- The store itself. -/
def Memory.answerer : Answerer Memory := fun r m => m.answer r

/-- A store through a restricted client. -/
def Restricted.answerer : Answerer (Restricted × Memory) := fun r s => s.1.answer s.2 r

/-- The listing of a transfer is that of its client. -/
theorem listObjects_eq_relay (pages : Nat) (client : Client) (bucket keyPrefix : String) :
    Transfer.listObjects pages client bucket keyPrefix =
      ((ClientCall.listing bucket keyPrefix).dialogue pages).relay (I := Requests) client.send := by
  have hfrom : ∀ found marker,
      listFrom (client.listObjects bucket keyPrefix) (stuckAt bucket) found marker pages =
        (listFrom (fetchPage bucket keyPrefix) (stuckAt bucket) found marker pages).relay
          (I := Requests) client.send := by
    induction pages with
    | zero => exact fun _ _ => rfl
    | succ pages ih =>
      intro found marker
      refine congrArg (Dialogue.bind _) (funext fun answer => ?_)
      cases answer with
      | error e => rfl
      | ok page =>
        dsimp only [Dialogue.bind]
        split
        · rfl
        · split
          · rfl
          · exact ih _ _
  exact hfrom [] none

/-! ## What calls come to -/

section Calls
variable {answer : Answerer σ} {other : Answerer τ} {pages : Nat} {calls : List ClientCall}

theorem asks_listFrom {P : Request → Prop}
    {fetch : Option String → Dialogue Requests (Except Error Page)} {stuck : String → Error}
    (hfetch : ∀ marker, (fetch marker).Asks P) (found : List (List Summary))
    (marker : Option String) (pages : Nat) : (listFrom fetch stuck found marker pages).Asks P := by
  induction pages generalizing found marker with
  | zero => exact .unfinished
  | succ pages ih =>
    refine (hfetch marker).bind fun answer => ?_
    cases answer with
    | error e => exact .done _
    | ok page =>
      dsimp only
      repeat' split
      · exact .done _
      · exact .done _
      · exact ih _ _

/-- All requests of a call are of one operation. -/
theorem ClientCall.asks_dialogue (pages : Nat) (call : ClientCall) :
    (call.dialogue pages).Asks fun r : Request => r.operation = call.operation := by
  cases call with
  | request r => exact .ask rfl .done
  | listing bucket keyPrefix =>
    have hpage : ∀ marker, (fetchPage bucket keyPrefix marker).Asks fun r : Request =>
        r.operation = .listObjects := fun marker => .ask rfl .done
    exact asks_listFrom hpage _ _ _

/-- A listing is answered one page after the other. -/
theorem run_listFrom (answer : Answerer σ) (bucket keyPrefix : String) (found : List (List Summary))
    (marker : Option String) (pages : Nat) (s : σ) :
    (listFrom (fetchPage bucket keyPrefix) (stuckAt bucket) found marker (pages + 1)).run answer s =
      match answer (.listObjects bucket keyPrefix marker) s with
      | (.error e, s) => (some (.error e), s)
      | (.ok page, s) =>
        match page.continuation with
        | none => (some (.ok (page.objects :: found).reverse.flatten), s)
        | some next =>
          if marker = some next then (some (.error (stuckAt bucket next)), s)
          else (listFrom (fetchPage bucket keyPrefix) (stuckAt bucket) (page.objects :: found)
            (some next) pages).run answer s := by
  have hpage : (fetchPage bucket keyPrefix marker).run answer s =
      (some (answer (.listObjects bucket keyPrefix marker) s).1,
        (answer (.listObjects bucket keyPrefix marker) s).2) := rfl
  refine (Dialogue.run_bind (I := Requests) answer _ _ s).trans ?_
  rw [hpage]
  rcases answer (.listObjects bucket keyPrefix marker) s with ⟨_ | page, s⟩
  · rfl
  · dsimp only
    cases page.continuation with
    | none => rfl
    | some next =>
      dsimp only
      split
      · rfl
      · rfl

/-- With two that answer alike and stay related all calls come to the same. -/
theorem perform_alike {R : σ → τ → Prop}
    (hanswer : ∀ r s t, R s t → (answer r s).1 = (other r t).1 ∧ R (answer r s).2 (other r t).2)
    (pages : Nat) (calls : List ClientCall) {s : σ} {t : τ} (h : R s t) :
    (perform answer pages calls s).1 = (perform other pages calls t).1 ∧
      R (perform answer pages calls s).2 (perform other pages calls t).2 := by
  induction calls generalizing s t with
  | nil => exact ⟨rfl, h⟩
  | cons c calls ih =>
    obtain ⟨hsame, hnext⟩ :=
      (Dialogue.asks_trivial (c.dialogue pages)).run_alike (fun r _ s t => hanswer r s t) h
    obtain ⟨hothers, hlast⟩ := ih hnext
    refine ⟨?_, hlast⟩
    exact congrArg₂ (fun (result : Option (Except Error c.Value)) others =>
      (⟨c, result⟩ : Outcome) :: others) hsame hothers

/-- What every request keeps, calls keep. -/
theorem perform_keeps {P : σ → Prop} (hanswer : ∀ r s, P s → P (answer r s).2) (pages : Nat)
    (calls : List ClientCall) {s : σ} (h : P s) : P (perform answer pages calls s).2 := by
  have hsame : ∀ r s t, s = t ∧ P s → (answer r s).1 = (answer r t).1 ∧
      (answer r s).2 = (answer r t).2 ∧ P (answer r s).2 := by
    rintro r s _ ⟨rfl, hs⟩
    exact ⟨rfl, rfl, hanswer r s hs⟩
  exact (perform_alike hsame pages calls (s := s) (t := s) ⟨rfl, h⟩).2.2

end Calls

/-! ## Calls through a restricted client -/

namespace Restricted
variable {pages : Nat} {c : Restricted} {m : Memory} {call : ClientCall}

/-- The client may be called for this. -/
def Allows (c : Restricted) (call : ClientCall) : Prop := call.operation ∈ c.allowed

instance (c : Restricted) : DecidablePred c.Allows :=
  fun call => inferInstanceAs (Decidable (call.operation ∈ c.allowed))

/-- What is allowed is answered by the store. -/
theorem run_of_allows (h : c.Allows call) :
    call.run answerer pages (c, m) =
      ((call.run Memory.answerer pages m).1, c, (call.run Memory.answerer pages m).2) := by
  have hanswer : ∀ r : Request, r.operation = call.operation → ∀ (s : Restricted × Memory) m,
      s = (c, m) → (answerer r s).1 = (Memory.answerer r m).1 ∧
        (answerer r s).2 = (c, (Memory.answerer r m).2) := by
    rintro r hr _ m rfl
    have hmem : r.operation ∈ c.allowed := hr ▸ h
    simp only [answerer, Restricted.answer, if_pos hmem]
    exact ⟨rfl, rfl⟩
  obtain ⟨hresult, hstate⟩ := (call.asks_dialogue pages).run_alike
    (R := fun (s : Restricted × Memory) m => s = (c, m)) hanswer (s := (c, m)) rfl
  exact Prod.ext hresult hstate

/-- The error of what is not allowed. -/
def refusal (operation : Operation) : Error :=
  .service 403 .accessDenied s!"{operation.name} is not allowed by the credential policy" none

theorem answer_of_not_mem {r : Request} (h : r.operation ∉ c.allowed) (m : Memory) :
    c.answer m r =
      (.error (refusal r.operation), { c with denied := r.operation :: c.denied }, m) := by
  have hcode : Code.ofName "AccessDenied" = .accessDenied := by decide
  simp only [Restricted.answer, if_neg h, Error.ofCode, hcode]
  rfl

/-- What is not allowed does not reach the store, and its first request is its last one. -/
theorem run_of_not_allows (h : ¬c.Allows call) :
    call.run answerer (pages + 1) (c, m) =
      (some (.error (refusal call.operation)),
        { c with denied := call.operation :: c.denied }, m) := by
  cases call with
  | request r =>
    have hanswer := answer_of_not_mem (r := r) h m
    exact congrArg (fun p => (some p.1, p.2)) hanswer
  | listing bucket keyPrefix =>
    have hanswer := answer_of_not_mem (r := .listObjects bucket keyPrefix none) h m
    refine (run_listFrom answerer bucket keyPrefix [] none pages (c, m)).trans ?_
    simp only [answerer, hanswer]
    rfl

/-- Calls through a restricted client are those that are allowed, with refusals in between. -/
theorem perform_eq (pages : Nat) (calls : List ClientCall) (c : Restricted) (m : Memory) :
    let through := perform answerer (pages + 1) calls (c, m)
    let direct := perform Memory.answerer (pages + 1) (calls.filter (c.Allows ·)) m
    through.1.map (·.call) = calls ∧
      through.1.filter (c.Allows ·.call) = direct.1 ∧
      (∀ o ∈ through.1, ¬c.Allows o.call →
        o.result = some (.error (refusal o.call.operation))) ∧
      through.2 = ({ c with
        denied := ((calls.filter (¬c.Allows ·)).map (·.operation)).reverse ++ c.denied },
        direct.2) := by
  induction calls generalizing c m with
  | nil => simp [perform]
  | cons call calls ih =>
    by_cases hcall : c.Allows call
    · obtain ⟨hcalls, hsame, hrefused, hlast⟩ := ih c (call.run Memory.answerer (pages + 1) m).2
      have hkept : (call :: calls).filter (c.Allows ·) = call :: calls.filter (c.Allows ·) :=
        List.filter_cons_of_pos (decide_eq_true hcall)
      have hleft : (call :: calls).filter (¬c.Allows ·) = calls.filter (¬c.Allows ·) :=
        List.filter_cons_of_neg (by simpa using hcall)
      simp only [ObjectStore.perform, run_of_allows hcall, hkept, hleft]
      refine ⟨congrArg (call :: ·) hcalls, ?_, List.forall_mem_cons.2 ⟨?_, hrefused⟩, hlast⟩
      · rw [List.filter_cons_of_pos (by simpa using hcall), hsame]
      · exact fun hnot => absurd hcall hnot
    · obtain ⟨hcalls, hsame, hrefused, hlast⟩ :=
        ih { c with denied := call.operation :: c.denied } m
      have hkept : (call :: calls).filter (c.Allows ·) = calls.filter (c.Allows ·) :=
        List.filter_cons_of_neg (mt of_decide_eq_true hcall)
      have hleft : (call :: calls).filter (¬c.Allows ·) = call :: calls.filter (¬c.Allows ·) :=
        List.filter_cons_of_pos (by simpa using hcall)
      simp only [ObjectStore.perform, run_of_not_allows hcall, hkept, hleft]
      refine ⟨congrArg (call :: ·) hcalls, ?_, List.forall_mem_cons.2 ⟨fun _ => rfl, hrefused⟩, ?_⟩
      · rw [List.filter_cons_of_neg (by simpa using hcall)]
        exact hsame
      · rw [hlast, List.map_cons, List.reverse_cons, List.append_assoc]
        rfl

end Restricted

/-! ## Listings end -/

namespace Memory
variable {m : Memory} {bucket keyPrefix : String}

/-- What is left of a listing behind a marker. -/
private def left (m : Memory) (bucket keyPrefix : String) (marker : Option String) : Nat :=
  (after marker (under keyPrefix ((m.buckets.get? bucket).getD ∅).entries)).length

private theorem left_of_alike {n : Memory} (h : m.Alike n) (marker : Option String) :
    n.left bucket keyPrefix marker = m.left bucket keyPrefix marker := by
  rw [left, h.buckets, left]

/-- Less is left behind a page. -/
private theorem left_lt {objects : KeyMap Bytes} (h : m.buckets.get? bucket = some objects)
    {marker : Option String} {onward : String}
    (hnext : (page objects.entries m.pageSize keyPrefix marker).continuation = some onward) :
    m.left bucket keyPrefix (some onward) < m.left bucket keyPrefix marker := by
  obtain ⟨o, hlast, rfl⟩ := getLast?_of_continuation hnext
  have hsorted : (under keyPrefix objects.entries).Pairwise fun a b => a.1 < b.1 :=
    objects.ordered.filter _
  have hpositive : 0 < ((after marker (under keyPrefix objects.entries)).take m.pageSize).length :=
    List.length_pos_of_mem (List.mem_of_getLast? hlast)
  rw [left, left, h, Option.getD_some, after_last hsorted hlast, List.length_drop]
  rw [List.length_take] at hpositive
  omega

/-- A listing comes to the same on all numbers of pages that are enough. -/
private theorem exists_run_listFrom {count : Nat} {marker : Option String}
    (h : m.left bucket keyPrefix marker < count) (found : List (List Summary)) :
    ∃ result last, ∀ pages, count ≤ pages →
      (listFrom (fetchPage bucket keyPrefix) (stuckAt bucket) found marker pages).run answerer m =
        (some result, last) := by
  induction count generalizing m found marker with
  | zero => exact absurd h (Nat.not_lt_zero _)
  | succ count ih =>
    suffices hsuffices : ∃ result last, ∀ pages, count ≤ pages →
        (listFrom (fetchPage bucket keyPrefix) (stuckAt bucket) found marker (pages + 1)).run
          answerer m = (some result, last) by
      obtain ⟨result, last, hlast⟩ := hsuffices
      refine ⟨result, last, fun pages hpages => ?_⟩
      obtain ⟨pages, rfl⟩ := Nat.exists_eq_succ_of_ne_zero (Nat.ne_of_gt (Nat.zero_lt_of_lt hpages))
      exact hlast pages (Nat.le_of_succ_le_succ hpages)
    simp only [run_listFrom]
    have halike := alike_answer_listObjects m bucket keyPrefix marker
    simp only [answerer]
    rcases hanswer : m.answer (.listObjects bucket keyPrefix marker) with ⟨e | listed, n⟩
    · exact ⟨_, n, fun _ _ => rfl⟩
    · rw [hanswer] at halike
      obtain ⟨objects, hobjects, rfl⟩ := listObjects_ok (congrArg Prod.fst hanswer)
      dsimp only
      cases hnext : (page objects.entries m.pageSize keyPrefix marker).continuation with
      | none => exact ⟨_, n, fun _ _ => rfl⟩
      | some onward =>
        dsimp only
        split
        · exact ⟨_, n, fun _ _ => rfl⟩
        · have hlt := left_lt hobjects hnext
          rw [← left_of_alike halike (some onward)] at hlt
          exact ih (Nat.lt_of_lt_of_le hlt (Nat.le_of_lt_succ h)) _

theorem exists_run (m : Memory) (call : ClientCall) :
    ∃ enough result last, ∀ pages, enough ≤ pages →
      call.run answerer pages m = (some result, last) := by
  cases call with
  | request r => exact ⟨0, (m.answer r).1, (m.answer r).2, fun _ _ => rfl⟩
  | listing bucket keyPrefix =>
    obtain ⟨result, last, h⟩ :=
      exists_run_listFrom (Nat.lt_succ_self (m.left bucket keyPrefix none)) []
    exact ⟨_, result, last, h⟩

/-! ## Putting objects only -/

/-- Stores with the same buckets and uploads that meet the same faults. They may differ in their
objects. -/
structure Similar (m n : Memory) : Prop where
  buckets (bucket : String) : (n.buckets.get? bucket).isSome = (m.buckets.get? bucket).isSome
  uploads : n.uploads = m.uploads
  started : n.started = m.started
  faults : n.faults = m.faults

namespace Similar
variable {n : Memory} {r : Request}

theorem cases (h : m.Similar n) (bucket : String) :
    (m.buckets.get? bucket = none ∧ n.buckets.get? bucket = none) ∨
      ∃ objects others, m.buckets.get? bucket = some objects ∧
        n.buckets.get? bucket = some others := by
  have hsome := h.buckets bucket
  cases hm : m.buckets.get? bucket with
  | none =>
    rw [hm] at hsome
    exact .inl ⟨rfl, Option.isNone_iff_eq_none.1 (Option.isSome_eq_false_iff.1 hsome)⟩
  | some objects =>
    rw [hm] at hsome
    obtain ⟨others, hothers⟩ := Option.isSome_iff_exists.1 hsome
    exact .inr ⟨objects, others, rfl, hothers⟩

/-- Whatever is put into a bucket of each. -/
theorem put (h : m.Similar n) (bucket : String) (objects others : KeyMap Bytes) :
    ({ m with buckets := m.buckets.insert bucket objects } : Memory).Similar
      { n with buckets := n.buckets.insert bucket others } := by
  refine ⟨fun b => ?_, h.uploads, h.started, h.faults⟩
  simp only [KeyMap.get?_insert]
  split
  · rfl
  · exact h.buckets b

theorem content (h : m.Similar n) (upload : Upload) (parts : List CompletedPart) :
    n.content upload parts = m.content upload parts := by
  simp only [Memory.content, h.uploads]

/-- Putting objects is answered alike by similar stores, which stay similar. -/
theorem effect (h : m.Similar n) (hr : r.operation ∈ Operation.putOnly) :
    (m.effect r).1 = (n.effect r).1 ∧ (m.effect r).2.Similar (n.effect r).2 := by
  cases r with
  | putObject bucket key body =>
    rcases h.cases bucket with ⟨hm, hn⟩ | ⟨objects, others, hm, hn⟩
    · simp only [Memory.effect, hm, hn]
      exact ⟨trivial, h⟩
    · simp only [Memory.effect, hm, hn]
      exact ⟨trivial, h.put ..⟩
  | initiateUpload bucket key =>
    rcases h.cases bucket with ⟨hm, hn⟩ | ⟨objects, others, hm, hn⟩
    · simp only [Memory.effect, hm, hn]
      exact ⟨trivial, h⟩
    · simp only [Memory.effect, hm, hn, h.uploads, h.started]
      exact ⟨trivial, h.buckets, rfl, rfl, h.faults⟩
  | uploadPart part =>
    simp only [Memory.effect, h.uploads]
    split
    · exact ⟨rfl, h⟩
    · exact ⟨rfl, h.buckets, rfl, h.started, h.faults⟩
  | completeUpload upload parts =>
    simp only [Memory.effect, h.content]
    split
    · exact ⟨rfl, h⟩
    · have herased : ({ m with uploads := m.uploads.erase upload.id } : Memory).Similar
          { n with uploads := n.uploads.erase upload.id } :=
        ⟨h.buckets, by simp only [h.uploads], h.started, h.faults⟩
      rcases h.cases upload.bucket with ⟨hm, hn⟩ | ⟨objects, others, hm, hn⟩
      · simp only [hm, hn]
        exact ⟨trivial, herased⟩
      · simp only [hm, hn]
        exact ⟨trivial, herased.put ..⟩
  | close => exact ⟨rfl, h.buckets, h.uploads, h.started, h.faults⟩
  | _ => simp [Request.operation, Operation.putOnly] at hr

theorem answer (h : m.Similar n) (hr : r.operation ∈ Operation.putOnly) :
    (m.answer r).1 = (n.answer r).1 ∧ (m.answer r).2.Similar (n.answer r).2 := by
  have hentered : (m.entered r).Similar (n.entered r) :=
    ⟨h.buckets, h.uploads, h.started, by simp only [entered, h.faults]⟩
  cases hfault : (Fault.meet r.operation m.faults).1 with
  | none =>
    rw [answer_of_passed hfault, answer_of_passed (m := n) (by rwa [h.faults])]
    exact hentered.effect hr
  | some e =>
    rw [answer_of_fault hfault, answer_of_fault (m := n) (by rwa [h.faults])]
    exact ⟨rfl, hentered⟩

end Similar

end Memory

namespace Restricted
variable {pages : Nat} {calls : List ClientCall} {c : Restricted} {m n : Memory}

private theorem exists_run (c : Restricted) (m : Memory) (call : ClientCall) :
    ∃ enough result last, ∀ pages, enough ≤ pages →
      call.run answerer pages (c, m) = (some result, last) := by
  by_cases hcall : c.Allows call
  · obtain ⟨enough, result, last, h⟩ := m.exists_run call
    refine ⟨enough, result, (c, last), fun pages hpages => ?_⟩
    rw [run_of_allows hcall, h pages hpages]
  · refine ⟨1, .error (refusal call.operation),
      ({ c with denied := call.operation :: c.denied }, m), fun pages hpages => ?_⟩
    obtain ⟨pages, rfl⟩ := Nat.exists_eq_succ_of_ne_zero (Nat.ne_of_gt hpages)
    exact run_of_not_allows hcall

/-- Calls come to the same on all numbers of pages that are enough, and none is cut off. -/
theorem exists_perform (calls : List ClientCall) (c : Restricted) (m : Memory) :
    ∃ enough outcomes last, (∀ o ∈ outcomes, o.result.isSome) ∧
      ∀ pages, enough ≤ pages → perform answerer pages calls (c, m) = (outcomes, last) := by
  induction calls generalizing c m with
  | nil => exact ⟨0, [], (c, m), by simp, fun _ _ => rfl⟩
  | cons call calls ih =>
    obtain ⟨first, result, ⟨c', m'⟩, hfirst⟩ := c.exists_run m call
    obtain ⟨others, outcomes, last, hsome, hothers⟩ := ih c' m'
    refine ⟨max first others, ⟨call, some result⟩ :: outcomes, last,
      List.forall_mem_cons.2 ⟨rfl, hsome⟩, fun pages hpages => ?_⟩
    obtain ⟨hle, hle'⟩ := Nat.max_le.1 hpages
    simp only [perform, hfirst pages hle, hothers pages hle']

/-- What the allowed requests keep, calls through a restricted client keep. -/
theorem keeps_perform {P : Memory → Prop}
    (hanswer : ∀ r m, r.operation ∈ c.allowed → P m → P (m.answer r).2) (h : P m) :
    P (perform answerer pages calls (c, m)).2.2 := by
  refine (perform_keeps (P := fun s => s.1.allowed = c.allowed ∧ P s.2) (fun r s hs => ?_) pages
    calls (s := (c, m)) ⟨rfl, h⟩).2
  obtain ⟨hallowed, hstore⟩ := hs
  by_cases hr : r.operation ∈ s.1.allowed
  · simp only [answerer, Restricted.answer, if_pos hr]
    exact ⟨hallowed, hanswer r s.2 (hallowed ▸ hr) hstore⟩
  · simp only [answerer, Restricted.answer, if_neg hr]
    exact ⟨hallowed, hstore⟩

theorem isSome_bucket_perform (hc : c.allowed = Operation.putOnly) {bucket : String}
    (h : (m.buckets.get? bucket).isSome) :
    ((perform answerer pages calls (c, m)).2.2.buckets.get? bucket).isSome := by
  refine keeps_perform (P := fun m => (m.buckets.get? bucket).isSome) (fun r m hr hm => ?_) h
  refine Memory.keeps_answer (P := fun m => (m.buckets.get? bucket).isSome) hm fun hentered =>
    Memory.isSome_bucket_effect hentered ?_
  rintro rfl
  rw [hc] at hr
  simp [Request.operation, Operation.putOnly] at hr

theorem isSome_object?_perform (hc : c.allowed = Operation.putOnly) {bucket key : String}
    (h : (m.object? bucket key).isSome) :
    ((perform answerer pages calls (c, m)).2.2.object? bucket key).isSome := by
  refine keeps_perform (P := fun m => (m.object? bucket key).isSome) (fun r m hr hm => ?_) h
  refine Memory.keeps_answer (P := fun m => (m.object? bucket key).isSome) hm fun hentered =>
    Memory.isSome_object?_effect hentered ?_ ?_
  all_goals
    intro heq
    rw [hc, heq] at hr
    simp [Operation.putOnly] at hr

/-- Putting objects only tells nothing about those that are there. -/
theorem perform_similar (h : m.Similar n) (hc : c.allowed = Operation.putOnly) :
    (perform answerer pages calls (c, m)).1 = (perform answerer pages calls (c, n)).1 := by
  refine (perform_alike (R := fun s t => s.1 = t.1 ∧ s.1.allowed = Operation.putOnly ∧
    s.2.Similar t.2) ?_ pages calls (s := (c, m)) (t := (c, n)) ⟨rfl, hc, h⟩).1
  rintro r ⟨c, m⟩ ⟨_, n⟩ ⟨rfl, hallowed, hsimilar⟩
  dsimp only at hallowed hsimilar
  by_cases hr : r.operation ∈ c.allowed
  · obtain ⟨hsame, hnext⟩ := hsimilar.answer (hallowed ▸ hr)
    simp only [answerer, Restricted.answer, if_pos hr]
    exact ⟨hsame, trivial, hallowed, hnext⟩
  · simp only [answerer, Restricted.answer, if_neg hr]
    exact ⟨trivial, trivial, hallowed, hsimilar⟩

/-- Calls through a restricted client come to what they come to at the store itself without those
that are not allowed: with the same answers, and with the store left the same as a whole, whatever
faults it has. Every other call is refused, and the client keeps a list of these in their order. No
listing is cut off if it may have enough pages. If only objects may be put, no bucket and no key
goes away, and what is answered does not depend on the objects that the store holds. -/
theorem refines_allowed (c : Restricted) (m : Memory) (calls : List ClientCall) :
    (∃ enough outcomes last, (∀ o ∈ outcomes, o.result.isSome) ∧
      ∀ pages, enough ≤ pages → perform answerer pages calls (c, m) = (outcomes, last)) ∧
    ∀ pages,
      let through := perform answerer (pages + 1) calls (c, m)
      let direct := perform Memory.answerer (pages + 1) (calls.filter (c.Allows ·)) m
      through.1.map (·.call) = calls ∧ through.1.filter (c.Allows ·.call) = direct.1 ∧
        through.2.2 = direct.2 ∧ (∀ o ∈ through.1, ¬c.Allows o.call → o.Refused) ∧
        through.2.1.allowed = c.allowed ∧ through.2.1.denied.reverse =
          c.denied.reverse ++ (calls.filter (¬c.Allows ·)).map (·.operation) ∧
        (c.allowed = Operation.putOnly →
          (∀ bucket, (m.buckets.get? bucket).isSome →
            (through.2.2.buckets.get? bucket).isSome) ∧
          (∀ bucket key, (m.object? bucket key).isSome →
            (through.2.2.object? bucket key).isSome) ∧
          ∀ n, m.Similar n → (perform answerer (pages + 1) calls (c, n)).1 = through.1) := by
  refine ⟨exists_perform calls c m, fun pages => ?_⟩
  obtain ⟨hcalls, hsame, hrefused, hlast⟩ := perform_eq pages calls c m
  refine ⟨hcalls, hsame, congrArg Prod.snd hlast, fun o ho hnot => ?_,
    congrArg (·.1.allowed) hlast, ?_, fun hc => ⟨fun _ => isSome_bucket_perform hc,
      fun _ _ => isSome_object?_perform hc, fun n hn => (perform_similar hn hc).symm⟩⟩
  · exact ⟨_, hrefused o ho hnot, ⟨_, rfl⟩, rfl, rfl⟩
  · rw [congrArg (·.1.denied) hlast, List.reverse_append, List.reverse_reverse]

/-- A bucket with two objects; the first object to be put will be lost on the way. -/
def stocked : Memory :=
  ((Memory.withPages "memory://obs" 1).seed "b" [("k", [1]), ("l", [2])]).withFault
    ⟨.putObject, .transport "connection reset", 0, some 1⟩

/-- Objects are put, and the bucket is to be read and deleted. -/
def attempts : List ClientCall :=
  [.request (.putObject "b" "n" [3]), .listing "b" "", .request (.getObject "b" "k"),
    .request (.deleteBucket "b"), .request (.putObject "b" "n" [3])]

theorem refines_allowed_of_attempts :
    let through := perform answerer 2 attempts ({}, stocked)
    through.2.1.denied.reverse = [.listObjects, .getObject, .deleteBucket] ∧
      (through.2.2.object? "b" "k").isSome ∧ through.2.2.object? "b" "n" = some [3] ∧
      (perform answerer 2 attempts
        ({}, { stocked with buckets := stocked.buckets.insert "b" ∅ })).1 = through.1 := by
  intro through
  obtain ⟨-, hthrough⟩ := refines_allowed {} stocked attempts
  obtain ⟨-, -, hstore, -, -, hdenied, hput⟩ := hthrough 1
  obtain ⟨-, hkeys, hsimilar⟩ := hput rfl
  refine ⟨hdenied.trans (by decide +kernel), hkeys "b" "k" (by decide +kernel), ?_,
    hsimilar _ ⟨fun b => ?_, rfl, rfl, rfl⟩⟩
  · rw [hstore]
    decide +kernel
  · rw [KeyMap.get?_insert]
    split
    · rename_i hb
      rw [hb]
      decide +kernel
    · rfl

end Restricted

end BucketTransfer.ObjectStore
