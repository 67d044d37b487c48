import BucketTransfer.Proofs.Latest
import BucketTransfer.Proofs.Transfer.Effect

/-!
# Transfers of several parts

The parts before the first one that fails are in the store as a whole, the later one of two with the
same name, and a transfer that fails leaves nothing else behind.
-/
namespace BucketTransfer.Transfer.Sink
open ObjectStore (Memory)
open Rehearsal (play)
open Services (Scripted)
open Services.Scripted

/-- Parts that are transferred one after the other, each with the content that it is opened to. -/
inductive Transferred (s : Sink) :
    Rehearsal Scripted → List (Part × Bytes) → Rehearsal Scripted → Prop where
  | nil (w : Rehearsal Scripted) : Transferred s w [] w
  | cons {w opened mid last : Rehearsal Scripted} {others : List (Part × Bytes)} (p : Part)
      (stream : ByteStream) (object : Uploaded)
      (opens : play p.openStream w = (some (.ok stream), opened)) (whole : stream.failure = none)
      (goes : play (s.transferPart p) w = (some (.ok object), mid))
      (rest : Transferred s mid others last) : Transferred s w ((p, stream.bytes) :: others) last

/-- What a store holds after parts were put into it: under the key of each name what the last part
of that name held, and all else as before. -/
structure Written (s : Sink) (m : Memory) (done : List (Part × Bytes)) (m' : Memory) : Prop where
  uploads : m'.uploads = m.uploads
  last : ∀ earlier p body later, done = earlier ++ (p, body) :: later →
    (∀ q ∈ later, q.1.name ≠ p.name) → m'.object? s.bucket (s.keyPrefix ++ p.name) = some body
  other : ∀ bucket key, (bucket = s.bucket → ∀ q ∈ done, s.keyPrefix ++ q.1.name ≠ key) →
    m'.object? bucket key = m.object? bucket key

variable {s : Sink} {w mid last : Rehearsal Scripted} {done : List (Part × Bytes)} {p : Part}
  {parts : List Part} {m m' n : Memory} {body : Bytes}

theorem Written.cons (h : m.Gained s.bucket (s.keyPrefix ++ p.name) body m')
    (hrest : s.Written m' done n) : s.Written m ((p, body) :: done) n := by
  refine ⟨hrest.uploads.trans h.uploads, ?_, ?_⟩
  · intro earlier q content later heq hlater
    refine latest_cons (fun q : Part × Bytes => q.1.name) (fun hothers => ?_)
      (fun earlier q later => hrest.last earlier q.1 q.2 later) earlier (q, content) later heq
      hlater
    rw [hrest.other, h.object?, if_pos ⟨rfl, rfl⟩]
    intro _ q hq hkey
    exact hothers q hq ((String.append_right_inj s.keyPrefix).1 hkey)
  · intro bucket key hkey
    rw [hrest.other bucket key fun hb q hq => hkey hb q (List.mem_cons_of_mem _ hq), h.object?,
      if_neg]
    rintro ⟨hb, rfl⟩
    exact hkey hb _ List.mem_cons_self rfl

theorem written_of_transferred (hw : s.Ready w) (h : s.Transferred w done last) :
    s.Ready last ∧ s.Written (store w) done (store last) := by
  induction h with
  | nil w => exact ⟨hw, rfl, by simp, fun _ _ _ => rfl⟩
  | cons p stream object opens whole goes rest ih =>
    obtain ⟨hmid, stream', opened', hopens, -, hgained⟩ := effect_transferPart hw goes
    obtain ⟨heq, -⟩ := Prod.mk.inj (opens.symm.trans hopens)
    obtain rfl : stream = stream' := by simpa using heq
    obtain ⟨hlast, hwritten⟩ := ih hmid
    exact ⟨hlast, .cons hgained hwritten⟩

/-- A transfer goes through all parts or stops at one that fails. -/
theorem play_transfer (hw : s.Ready w) (parts : List Part) :
    ∃ outcome last, play (s.transfer parts) w = (some outcome, last) ∧
      match outcome with
      | .ok _ => ∃ done, parts = done.map Prod.fst ∧ s.Transferred w done last
      | .error e => ∃ done failed rest mid, parts = done.map Prod.fst ++ failed :: rest ∧
        s.Transferred w done mid ∧ play (s.transferPart failed) mid = (some (.error e), last) := by
  induction parts generalizing w with
  | nil => exact ⟨.ok {}, w, rfl, [], rfl, .nil w⟩
  | cons p parts ih =>
    obtain ⟨answer, mid, hpart⟩ :=
      Rehearsal.exists_play_eq_some exists_answer (finishes_transferPart (s := s) p) w
    have heffect := effect_transferPart hw hpart
    cases answer with
    | error e =>
      have hplay : play (s.transfer (p :: parts)) w = (some (.error e), mid) :=
        Rehearsal.play_bind hpart rfl
      exact ⟨.error e, mid, hplay, [], p, parts, w, rfl, .nil w, hpart⟩
    | ok object =>
      obtain ⟨hmid, stream, opened, hopens, hwhole, -⟩ := heffect
      obtain ⟨outcome, last, hrest, hdone⟩ := ih hmid
      have hplay : play (s.transfer (p :: parts)) w =
          (some (outcome.map fun t => ⟨object :: t.objects⟩), last) :=
        Rehearsal.play_bind hpart (Rehearsal.play_bind hrest rfl)
      refine ⟨_, last, hplay, ?_⟩
      cases outcome with
      | ok summary =>
        obtain ⟨done, rfl, htransferred⟩ := hdone
        exact ⟨_ :: done, rfl, .cons p stream object hopens hwhole hpart htransferred⟩
      | error e =>
        obtain ⟨done, failed, rest, stopped, rfl, htransferred, hfailed⟩ := hdone
        exact ⟨_ :: done, failed, rest, stopped, rfl,
          .cons p stream object hopens hwhole hpart htransferred, hfailed⟩

/-- A transfer that fails leaves the parts before the failing one and nothing else, whatever fails
but the aborting of uploads. -/
theorem written_of_transfer_error {others : List Memory} {e : Error}
    (hstores : w.services.stores = m :: others) (hm : m.Reachable)
    (hfaults : ∀ f ∈ m.faults, f.operation ≠ .abortUpload)
    (hclient : Full s.client ∨ Partial s.client ∧ (.abortUpload ∈ w.services.restricted.allowed ∨
      ∃ other, s.abortClient = some other ∧ Full other))
    (h : play (s.transfer parts) w = (some (.error e), last)) :
    ∃ done failed rest mid, parts = done.map Prod.fst ++ failed :: rest ∧
      s.Transferred w done mid ∧ play (s.transferPart failed) mid = (some (.error e), last) ∧
      s.Written m done (store last) := by
  have hstore : store w = m := by rw [store, storeAt, hstores]; rfl
  have hw : s.Ready w := by
    refine ⟨by simp [hstores], hstore ▸ hm.numbered, hstore ▸ hfaults,
      hclient.imp_right And.left, ?_⟩
    rcases hclient with hfull | ⟨hpartial, hallowed | hother⟩
    · exact .inl (.inl hfull)
    · exact .inl (.inr ⟨hpartial, hallowed⟩)
    · exact .inr hother
  obtain ⟨outcome, last', hplay, hdone⟩ := play_transfer hw parts
  obtain ⟨heq, rfl⟩ := Prod.mk.inj (hplay.symm.trans h)
  obtain rfl := Option.some.inj heq
  obtain ⟨done, failed, rest, mid, rfl, htransferred, hfailed⟩ := hdone
  obtain ⟨hmid, hwritten⟩ := written_of_transferred hw htransferred
  have hkept : (store mid).Kept (store last') := (effect_transferPart hmid hfailed).2
  rw [hstore] at hwritten
  refine ⟨done, failed, rest, mid, rfl, htransferred, hfailed, hkept.uploads.trans hwritten.uploads,
    ?_, ?_⟩
  · intro earlier p body later hsplit hlater
    rw [hkept.object?, hwritten.last earlier p body later hsplit hlater]
  · intro bucket key hkey
    rw [hkept.object?, hwritten.other bucket key hkey]

/-- A chunk is refused, and the upload is aborted through the other client. -/
theorem written_of_refused_chunk :
    let m := ((Memory.withPages "memory://obs" 1).seed "b" [("k", [0])]).withFault
      { operation := .uploadPart, error := .transport "reset", skip := 1, times := some 1 }
    let w : Rehearsal Scripted := { services := { stores := [m] } }
    let s := { ofChunks ⟨1, "memory://obs"⟩ "b" "p/" 2 with
      abortClient := some ⟨2, "memory://obs"⟩ }
    let parts : List Part := [.ofBytes "x" [1], .ofBytes "y" [2, 3, 4]]
    ∃ done failed rest mid, parts = done.map Prod.fst ++ failed :: rest ∧
      s.Transferred w done mid ∧
      s.Written m done (store (play (s.transfer parts) w).2) := by
  intro m w s parts
  have hfails : (play (s.transfer parts) w).1.map Except.isOk = some false := by decide +kernel
  obtain ⟨e, he⟩ : ∃ e, (play (s.transfer parts) w).1 = some (.error e) := by
    revert hfails
    rcases (play (s.transfer parts) w).1 with _ | e | summary
    · simp
    · exact fun _ => ⟨e, rfl⟩
    · simp [Except.isOk, Except.toBool]
  obtain ⟨done, failed, rest, mid, hparts, htransferred, -, hwritten⟩ :=
    written_of_transfer_error (s := s) (w := w) (m := m) rfl (.hindered _ (.seeded _ _ (.new _ _)))
      (by decide +kernel) (.inr ⟨rfl, .inr ⟨_, rfl, rfl⟩⟩) (Prod.ext he rfl)
  exact ⟨done, failed, rest, mid, hparts, htransferred, hwritten⟩

end BucketTransfer.Transfer.Sink
