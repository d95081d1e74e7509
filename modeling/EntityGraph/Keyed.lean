/-!
Lists whose items carry a key. Insertion replaces the item with the same key where it stands and
otherwise appends, so a list built by insertion keeps the order of first appearance and has each
key once.
-/

namespace EntityGraph.Keyed

variable {α κ : Type} [DecidableEq κ]

def insert (key : α → κ) (a : α) : List α → List α
  | [] => [a]
  | b :: rest => if key b = key a then a :: rest else b :: insert key a rest

def find? (key : α → κ) (k : κ) (xs : List α) : Option α :=
  xs.find? fun a => decide (key a = k)

def ofList (key : α → κ) (xs : List α) : List α :=
  xs.foldl (fun done a => insert key a done) []

def modify (key : α → κ) (k : κ) (f : α → α) : List α → List α
  | [] => []
  | a :: rest => if key a = k then f a :: rest else a :: modify key k f rest

theorem mem_keys_insert (key : α → κ) (a : α) (xs : List α) (k : κ) :
    k ∈ (insert key a xs).map key ↔ k = key a ∨ k ∈ xs.map key := by
  induction xs with
  | nil => simp [insert]
  | cons b rest ih =>
    by_cases h : key b = key a
    · simp [insert, h]
    · simp only [insert, h, ↓reduceIte, List.map_cons, List.mem_cons, ih]
      exact or_left_comm

theorem nodup_insert (key : α → κ) (a : α) {xs : List α} (h : (xs.map key).Nodup) :
    ((insert key a xs).map key).Nodup := by
  induction xs with
  | nil => simp [insert]
  | cons b rest ih =>
    rw [List.map_cons, List.nodup_cons] at h
    by_cases hb : key b = key a
    · rw [insert, if_pos hb, List.map_cons, List.nodup_cons]
      exact ⟨hb ▸ h.1, h.2⟩
    · rw [insert, if_neg hb, List.map_cons, List.nodup_cons, mem_keys_insert, not_or]
      exact ⟨⟨hb, h.1⟩, ih h.2⟩

theorem nodup_ofList (key : α → κ) (xs : List α) : ((ofList key xs).map key).Nodup := by
  suffices h : ∀ done : List α, (done.map key).Nodup →
      ((xs.foldl (fun done a => insert key a done) done).map key).Nodup from h [] (by simp)
  induction xs with
  | nil => exact fun _ h => h
  | cons a rest ih => exact fun done h => ih _ (nodup_insert key a h)

end EntityGraph.Keyed
