import EntityGraph.Keyed
import Mathlib.Data.List.Nodup

namespace EntityGraph.Keyed

variable {α κ : Type} [DecidableEq κ] {key : α → κ}

theorem key_of_find? {xs : List α} {k : κ} {a : α} (h : find? key k xs = some a) : key a = k := by
  simpa using List.find?_some h

theorem find?_cons (k : κ) (a : α) (xs : List α) :
    find? key k (a :: xs) = if key a = k then some a else find? key k xs := by
  rw [find?, List.find?_cons]
  by_cases h : key a = k <;> simp [h, find?]

theorem find?_eq_none {k : κ} {xs : List α} : find? key k xs = none ↔ k ∉ xs.map key := by
  simp [find?, List.find?_eq_none]

theorem mem_of_lookup {α : Type} {xs : List (String × α)} {key : String} {value : α}
    (h : xs.lookup key = some value) : (key, value) ∈ xs := by
  obtain ⟨before, after, rfl, _⟩ := List.lookup_eq_some_iff.mp h
  exact List.mem_append_cons_self

theorem lookup_eq_find? {β : Type} (k : String) (xs : List (String × β)) :
    xs.lookup k = (find? Prod.fst k xs).map Prod.snd := by
  induction xs with
  | nil => rfl
  | cons x xs ih =>
    rw [find?_cons, List.lookup_cons, ih]
    by_cases hk : x.1 = k
    · simp [hk]
    · rw [if_neg hk, beq_false_of_ne (Ne.symm hk)]

/-- An insertion is found under its own key, and leaves the others as they are. -/
theorem find?_insert (k : κ) (a : α) (xs : List α) :
    find? key k (insert key a xs) = if key a = k then some a else find? key k xs := by
  induction xs with
  | nil => rw [insert, find?_cons]
  | cons b xs ih =>
    rw [insert]
    by_cases hb : key b = key a
    · rw [if_pos hb, find?_cons, find?_cons, hb]
      split <;> rfl
    · rw [if_neg hb, find?_cons, find?_cons, ih]
      by_cases hk : key b = k
      · have ha : key a ≠ k := fun ha => hb (hk.trans ha.symm)
        rw [if_pos hk, if_neg ha, if_pos hk]
      · rw [if_neg hk, if_neg hk]

/-- An insertion is seen under its key alone. -/
theorem lookup_insert {β : Type} (k : String) (x : String × β) (xs : List (String × β)) :
    (insert Prod.fst x xs).lookup k = if x.1 = k then some x.2 else xs.lookup k := by
  rw [lookup_eq_find?, lookup_eq_find?, find?_insert]
  split <;> rfl

/-- What is found under its own key stays as it is when it is inserted again. -/
theorem insert_of_find? {a : α} {xs : List α} (h : find? key (key a) xs = some a) :
    insert key a xs = xs := by
  induction xs with
  | nil => cases h
  | cons b xs ih =>
    rw [find?_cons] at h
    rw [insert]
    by_cases hb : key b = key a
    · rw [if_pos hb] at h ⊢
      rw [Option.some.inj h]
    · rw [if_neg hb] at h ⊢
      rw [ih h]

theorem mem_of_mem_insert {a b : α} {xs : List α} (h : b ∈ insert key a xs) : b = a ∨ b ∈ xs := by
  induction xs with
  | nil => exact Or.inl (List.mem_singleton.mp h)
  | cons c xs ih =>
    rw [insert] at h
    split at h
    · rcases List.mem_cons.mp h with h | h
      · exact Or.inl h
      · exact Or.inr (List.mem_cons_of_mem c h)
    · rcases List.mem_cons.mp h with rfl | h
      · exact Or.inr (List.mem_cons_self ..)
      · exact (ih h).imp_right (List.mem_cons_of_mem c)

theorem mem_of_mem_ofList {a : α} {xs : List α} (h : a ∈ ofList key xs) : a ∈ xs := by
  suffices hfold : ∀ done : List α, a ∈ xs.foldl (fun done b => insert key b done) done →
      a ∈ done ∨ a ∈ xs from (hfold [] h).resolve_left (List.not_mem_nil)
  clear h
  induction xs with
  | nil => exact fun _ h => Or.inl h
  | cons b xs ih =>
    intro done h
    rcases ih _ h with h | h
    · rcases mem_of_mem_insert h with rfl | h
      · exact Or.inr (List.mem_cons_self ..)
      · exact Or.inl h
    · exact Or.inr (List.mem_cons_of_mem b h)

/-- The keys depend on the keys. -/
theorem map_insert (a : α) (xs : List α) :
    (insert key a xs).map key = insert id (key a) (xs.map key) := by
  induction xs with
  | nil => rfl
  | cons b xs ih =>
    rw [insert, List.map_cons, insert]
    by_cases hb : key b = key a
    · simp [hb]
    · simp [hb, ih]

/-- Where keys differ, each item is the only one with its key. -/
theorem filter_of_mem {xs : List α} (h : (xs.map key).Nodup) {a : α} (ha : a ∈ xs) :
    xs.filter (key · = key a) = [a] := by
  induction xs with
  | nil => cases ha
  | cons b xs ih =>
    rw [List.map_cons, List.nodup_cons] at h
    rcases List.mem_cons.mp ha with rfl | ha
    · have hnone : xs.filter (key · = key a) = [] :=
        List.filter_eq_nil_iff.mpr fun b hb heq =>
          h.1 (of_decide_eq_true heq ▸ List.mem_map_of_mem hb)
      rw [List.filter_cons, if_pos (decide_eq_true rfl), hnone]
    · have hne : key b ≠ key a := fun heq => h.1 (heq ▸ List.mem_map_of_mem ha)
      rw [List.filter_cons, if_neg (by simpa using hne), ih h.2 ha]

theorem find?_modify {f : α → α} (hf : ∀ a, key (f a) = key a) (k l : κ) (xs : List α) :
    find? key k (modify key l f xs) =
      if l = k then (find? key k xs).map f else find? key k xs := by
  induction xs with
  | nil => simp [modify, find?]
  | cons a xs ih =>
    rw [modify]
    by_cases ha : key a = l
    · rw [if_pos ha, find?_cons, find?_cons, hf, ha]
      by_cases hl : l = k <;> simp [hl]
    · rw [if_neg ha, find?_cons, find?_cons, ih]
      by_cases hk : key a = k
      · rw [if_pos hk, if_neg fun hl => ha (hk.trans hl.symm), if_pos hk]
      · rw [if_neg hk, if_neg hk]

/-- A change that does not change what it is made to does nothing. -/
theorem modify_of_find? {f : α → α} {k : κ} {xs : List α} {a : α}
    (h : find? key k xs = some a) (hf : f a = a) : modify key k f xs = xs := by
  induction xs with
  | nil => rfl
  | cons b xs ih =>
    rw [find?_cons] at h
    rw [modify]
    by_cases hb : key b = k
    · rw [if_pos hb] at h ⊢
      rw [Option.some.inj h, hf]
    · rw [if_neg hb] at h ⊢
      rw [ih h]

/-- A key that is there already stays where it stands, and another one comes last. -/
theorem insert_id (k : κ) (ks : List κ) :
    insert id k ks = if k ∈ ks then ks else ks ++ [k] := by
  induction ks with
  | nil => rfl
  | cons l ks ih =>
    rw [insert]
    by_cases hl : l = k
    · simp [hl]
    · rw [id, id, if_neg hl, ih]
      by_cases hk : k ∈ ks
      · simp [hk]
      · simp [hk, Ne.symm hl]

def append (ks ls : List κ) : List κ := ls.foldl (fun done k => insert id k done) ks

theorem ofList_id (ks : List κ) : ofList id ks = append [] ks := rfl

/-- Appending keeps the first place of each key, however it is grouped. -/
theorem append_append (ks ls ms : List κ) :
    append (append ks ls) ms = append ks (ls ++ ms) := by
  rw [append, append, append, List.foldl_append]

theorem append_cons (ks : List κ) (l : κ) (ls : List κ) :
    append ks (l :: ls) = append (insert id l ks) ls := rfl

theorem mem_append {k : κ} {ks ls : List κ} : k ∈ append ks ls ↔ k ∈ ks ∨ k ∈ ls := by
  induction ls generalizing ks with
  | nil => simp [append]
  | cons l ls ih =>
    have hl : k ∈ insert id l ks ↔ k = l ∨ k ∈ ks := by simpa using mem_keys_insert id l ks k
    rw [append_cons, ih, hl, List.mem_cons]
    tauto

/-- Keys that were put behind others, put behind further ones, come in the same order. -/
theorem append_of_append (ks ls ms : List κ) :
    append ks (append ls ms) = append (append ks ls) ms := by
  induction ms generalizing ls with
  | nil => rfl
  | cons m ms ih =>
    have hinsert : append ks (insert id m ls) = insert id m (append ks ls) := by
      rw [insert_id, insert_id]
      by_cases hm : m ∈ ls
      · rw [if_pos hm, if_pos (mem_append.mpr (Or.inr hm))]
      · rw [if_neg hm, ← append_append, append, List.foldl_cons, List.foldl_nil, insert_id]
    rw [append_cons, append_cons, ih, hinsert]

theorem append_ofList (ks ls : List κ) : append ks (ofList id ls) = append ks ls := by
  rw [ofList_id, append_of_append]
  rfl

end EntityGraph.Keyed
