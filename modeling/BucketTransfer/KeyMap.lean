/-!
# Maps kept in key order

A map from texts, as the list of its entries in strictly increasing key order (the order of their
code points, which is that of their encodings). Two maps with the same entries are equal.
-/
namespace BucketTransfer

structure KeyMap (α : Type) where
  entries : List (String × α)
  ordered : entries.Pairwise fun a b => a.1 < b.1

namespace KeyMap
variable {α : Type}

theorem eq_of_entries {m n : KeyMap α} (h : m.entries = n.entries) : m = n := by
  cases m; cases n; cases h; rfl

instance [DecidableEq α] : DecidableEq (KeyMap α) := fun m n =>
  if h : m.entries = n.entries then isTrue (eq_of_entries h)
  else isFalse fun e => h (e ▸ rfl)

def empty : KeyMap α := ⟨[], .nil⟩

instance : EmptyCollection (KeyMap α) := ⟨empty⟩
instance : Inhabited (KeyMap α) := ⟨empty⟩

/-- Puts an entry into its place, over one of the same key. -/
def put (key : String) (value : α) : List (String × α) → List (String × α)
  | [] => [(key, value)]
  | e :: es =>
    if key < e.1 then (key, value) :: e :: es
    else if e.1 < key then e :: put key value es
    else (key, value) :: es

theorem mem_put {key : String} {value : α} {es : List (String × α)} {e : String × α}
    (h : e ∈ put key value es) : e = (key, value) ∨ e ∈ es := by
  induction es with
  | nil => simpa [put] using h
  | cons x xs ih =>
    simp only [put] at h
    split at h
    · simpa using h
    · split at h
      · rcases List.mem_cons.1 h with h | h
        · exact .inr (h ▸ List.mem_cons_self)
        · exact (ih h).imp_right (List.mem_cons_of_mem _)
      · rcases List.mem_cons.1 h with h | h
        · exact .inl h
        · exact .inr (List.mem_cons_of_mem _ h)

theorem ordered_put {key : String} {value : α} {es : List (String × α)}
    (h : es.Pairwise fun a b => a.1 < b.1) :
    (put key value es).Pairwise fun a b => a.1 < b.1 := by
  induction es with
  | nil => simp [put]
  | cons x xs ih =>
    obtain ⟨hx, hxs⟩ := List.pairwise_cons.1 h
    simp only [put]
    split
    · rename_i lt
      refine List.pairwise_cons.2 ⟨fun b hb => ?_, h⟩
      rcases List.mem_cons.1 hb with rfl | hb
      · exact lt
      · exact String.lt_trans lt (hx b hb)
    · split
      · rename_i lt
        refine List.pairwise_cons.2 ⟨fun b hb => ?_, ih hxs⟩
        rcases mem_put hb with rfl | hb
        · exact lt
        · exact hx b hb
      · rename_i h1 h2
        have e : x.1 = key := String.le_antisymm (String.not_lt.1 h1) (String.not_lt.1 h2)
        exact List.pairwise_cons.2 ⟨fun b hb => e ▸ hx b hb, hxs⟩

/-- The map with `value` at `key`. -/
def insert (m : KeyMap α) (key : String) (value : α) : KeyMap α :=
  ⟨put key value m.entries, ordered_put m.ordered⟩

/-- The map without `key`. -/
def erase (m : KeyMap α) (key : String) : KeyMap α :=
  ⟨m.entries.filter fun e => e.1 != key, m.ordered.filter _⟩

/-- The map with `key` as it was: with the value that it had, or without one. -/
def restore (m : KeyMap α) (key : String) : Option α → KeyMap α
  | some value => m.insert key value
  | none => m.erase key

/-- What the map holds at `key`. -/
def get? (m : KeyMap α) (key : String) : Option α :=
  (m.entries.find? fun e => e.1 == key).map (·.2)

def contains (m : KeyMap α) (key : String) : Bool := (m.get? key).isSome

/-- The keys in order. -/
def keys (m : KeyMap α) : List String := m.entries.map (·.1)

def size (m : KeyMap α) : Nat := m.entries.length

def isEmpty (m : KeyMap α) : Bool := m.entries.isEmpty

/-- Puts entries in one after the other; of two with one key the later one stays. -/
def ofList (es : List (String × α)) : KeyMap α := es.foldl (fun m e => m.insert e.1 e.2) ∅

/-- The map without several keys. -/
def eraseAll (m : KeyMap α) (keys : List String) : KeyMap α := keys.foldl erase m

end KeyMap

end BucketTransfer
