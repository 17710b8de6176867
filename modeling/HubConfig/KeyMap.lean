/-
**Maps with text keys.**

Labels, queries, metric results and environment variables are maps whose order an answer can show:
they are written in the order of their keys.  A map is therefore its list of entries in strictly
increasing order of keys, so that two maps with the same entries are the same map.

Main definitions:

* `KeyMap`: entries in strictly increasing order of keys;
* `KeyMap.insert`, `KeyMap.ofList`: later values replace earlier ones;
* `KeyMap.get?`, `KeyMap.toList`: the two views;
* `KeyMap.filterMap`: the entries whose value passes, with the value changed on the way.

Main results:

* `KeyMap.get?_insert`: what an insertion changes;
* `KeyMap.toList_inj`: a map is determined by its entries;
* `KeyMap.ofList_toList`: inserting a map's own entries gives the map back.
-/

set_option autoImplicit false

namespace HubConfig

/-- Entries in strictly increasing order of keys. -/
structure KeyMap (α : Type) where
  /-- The entries in order. -/
  toList : List (String × α)
  /-- The order is strict, so no key comes twice. -/
  sorted : toList.Pairwise (fun a b => a.1 < b.1)

namespace KeyMap

variable {α β : Type}

/-! ### Views -/

theorem toList_inj {m n : KeyMap α} : m.toList = n.toList ↔ m = n := by
  constructor
  · intro h
    cases m
    cases n
    cases h
    rfl
  · rintro rfl
    rfl

instance [DecidableEq α] : DecidableEq (KeyMap α) := fun m n =>
  if h : m.toList = n.toList then isTrue (toList_inj.1 h)
  else isFalse fun e => h (e ▸ rfl)

/-- The value of a key. -/
def get? (m : KeyMap α) (key : String) : Option α := m.toList.lookup key

/-- The map without entries. -/
def empty : KeyMap α := ⟨[], .nil⟩

instance : EmptyCollection (KeyMap α) := ⟨empty⟩

instance : Inhabited (KeyMap α) := ⟨empty⟩

/-- Whether a map has no entry. -/
def isEmpty (m : KeyMap α) : Bool := m.toList.isEmpty

/-! ### Insertion -/

/-- Puts an entry at its place in a list in order, over an entry with the same key. -/
def insertEntry (key : String) (value : α) : List (String × α) → List (String × α)
  | [] => [(key, value)]
  | e :: es =>
      if key < e.1 then (key, value) :: e :: es
      else if key = e.1 then (key, value) :: es
      else e :: insertEntry key value es

theorem mem_insertEntry {key : String} {value : α} {a : String × α} {es : List (String × α)} :
    a ∈ insertEntry key value es → a = (key, value) ∨ a ∈ es := by
  induction es with
  | nil => simp [insertEntry]
  | cons e es ih => rw [insertEntry]; split <;> (try split) <;> grind

theorem insertEntry_sorted (key : String) (value : α) {es : List (String × α)}
    (h : es.Pairwise (fun a b => a.1 < b.1)) :
    (insertEntry key value es).Pairwise (fun a b => a.1 < b.1) := by
  induction es with
  | nil => simp [insertEntry]
  | cons e es ih =>
    obtain ⟨he, hes⟩ := List.pairwise_cons.1 h
    rw [insertEntry]
    split
    · next hlt =>
      refine List.pairwise_cons.2 ⟨?_, h⟩
      intro a ha
      rcases List.mem_cons.1 ha with rfl | ha
      · exact hlt
      · exact String.lt_trans hlt (he a ha)
    · next hge =>
      split
      · next heq => exact List.pairwise_cons.2 ⟨fun a ha => heq ▸ he a ha, hes⟩
      · next hne =>
        refine List.pairwise_cons.2 ⟨?_, ih hes⟩
        intro a ha
        rcases mem_insertEntry ha with rfl | ha
        · exact Std.lt_of_le_of_ne (Std.not_lt.1 hge) (Ne.symm hne)
        · exact he a ha

/-- Adds an entry, over an entry with the same key. -/
def insert (m : KeyMap α) (key : String) (value : α) : KeyMap α :=
  ⟨insertEntry key value m.toList, insertEntry_sorted key value m.sorted⟩

/-- Adds entries from left to right, so that of two values for one key the later one stays. -/
def ofList (entries : List (String × α)) : KeyMap α :=
  entries.foldl (fun m e => m.insert e.1 e.2) ∅

theorem lookup_cons (key : String) (e : String × α) (es : List (String × α)) :
    (e :: es).lookup key = if key = e.1 then some e.2 else es.lookup key := by
  obtain ⟨k, v⟩ := e
  by_cases h : key = k
  · simp [h]
  · have hbeq : (key == k) = false := by simpa using h
    rw [if_neg h, List.lookup_cons, hbeq]

theorem lookup_insertEntry (key key' : String) (value : α) (es : List (String × α)) :
    (insertEntry key value es).lookup key' =
      if key' = key then some value else es.lookup key' := by
  induction es with
  | nil => simp [insertEntry, lookup_cons]
  | cons e es ih => rw [insertEntry]; split <;> (try split) <;> grind [lookup_cons]

/-- An insertion sets its own key and no other. -/
theorem get?_insert (m : KeyMap α) (key key' : String) (value : α) :
    (m.insert key value).get? key' = if key' = key then some value else m.get? key' :=
  lookup_insertEntry key key' value m.toList

/-! ### Entries back into a map -/

theorem insertEntry_of_forall_lt {key : String} {value : α} {es : List (String × α)}
    (h : ∀ e ∈ es, e.1 < key) : insertEntry key value es = es ++ [(key, value)] := by
  induction es with
  | nil => rfl
  | cons e es ih =>
    have he : e.1 < key := h e (by simp)
    have hne : key ≠ e.1 := by
      intro heq
      exact String.lt_irrefl _ (heq ▸ he)
    rw [insertEntry, if_neg (fun hlt => String.lt_irrefl _ (String.lt_trans he hlt)),
      if_neg hne, ih fun a ha => h a (by simp [ha]), List.cons_append]

theorem toList_foldl_insert (m : KeyMap α) {es : List (String × α)}
    (h : (m.toList ++ es).Pairwise (fun a b => a.1 < b.1)) :
    (es.foldl (fun m e => m.insert e.1 e.2) m).toList = m.toList ++ es := by
  induction es generalizing m with
  | nil => simp
  | cons e es ih =>
    have step : (m.insert e.1 e.2).toList = m.toList ++ [e] :=
      insertEntry_of_forall_lt fun a ha =>
        (List.pairwise_append.1 h).2.2 a ha e (by simp)
    have : m.toList ++ e :: es = (m.insert e.1 e.2).toList ++ es := by simp [step]
    rw [List.foldl_cons, this]
    exact ih _ (by rw [← this]; exact h)

/-- A map's own entries give the map back. -/
theorem ofList_toList (m : KeyMap α) : ofList m.toList = m :=
  toList_inj.1 (toList_foldl_insert ∅ m.sorted)

/-! ### Changing values -/

/-- The entries whose value passes, with the value changed on the way. -/
def filterMap (f : α → Option β) (m : KeyMap α) : KeyMap β where
  toList := m.toList.filterMap fun e => (f e.2).map (e.1, ·)
  sorted := by
    refine m.sorted.filterMap _ ?_
    intro a b hab c hc d hd
    simp only [Option.map_eq_some_iff] at hc hd
    obtain ⟨_, _, rfl⟩ := hc
    obtain ⟨_, _, rfl⟩ := hd
    exact hab

@[simp] theorem toList_filterMap (f : α → Option β) (m : KeyMap α) :
    (m.filterMap f).toList = m.toList.filterMap fun e => (f e.2).map (e.1, ·) := rfl

end KeyMap

end HubConfig
