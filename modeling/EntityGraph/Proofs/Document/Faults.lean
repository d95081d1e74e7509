import EntityGraph.Document.Expansion
import EntityGraph.Proofs.Outcome

namespace EntityGraph

namespace Expansion

inductive FaultsIn (P : Error → Prop) : Expansion → Prop
  | done : FaultsIn P .done
  | fault {e : Error} : P e → FaultsIn P (.fault e)
  | field {head : AskedField} {inner rest : Unit → Expansion} : FaultsIn P (inner ()) →
      FaultsIn P (rest ()) → FaultsIn P (.field head inner rest)

variable {P : Error → Prop}

/-- What a run of the expansion meets is among its faults. -/
theorem FaultsIn.failsIn_items {x : Expansion} (hx : x.FaultsIn P) :
    Outcome.FailsIn x.items P := by
  induction hx with
  | done => exact .of_ok []
  | fault he => exact .of_error he
  | field _ _ _ ih =>
    rw [Expansion.items]
    exact ih.map _

theorem FaultsIn.of_mem_items {x : Expansion} (hx : x.FaultsIn P) {items : List Item}
    (h : x.items = .ok items) {item : Item} (hm : item ∈ items) :
    (item.inner ()).FaultsIn P := by
  induction hx generalizing items with
  | done => cases Except.ok.inj h ▸ hm
  | fault he => cases h
  | field hinner _ _ ih =>
    rw [Expansion.items] at h
    obtain ⟨more, hmore, rfl⟩ := Outcome.map_eq_ok.mp h
    rcases List.mem_cons.mp hm with rfl | hm
    · exact hinner
    · exact ih hmore hm

end Expansion

namespace Reading

open Expansion

variable {P : Error → Prop} {r : Reading} {below? : Option (List Selection → Expansion)}
  {opening : Opening}

/-- A directive fails in its argument or not at all. -/
theorem failsIn_skipsBy (hP : ∀ field argument reason, P (.invalidArgument field argument reason))
    (assign : String → Value) (directives : List Directive) :
    Outcome.FailsIn (skipsBy assign directives) P := by
  induction directives with
  | nil => exact .of_ok false
  | cons directive rest ih =>
    rw [skipsBy]
    split
    · exact ih
    · split
      · split
        · exact .of_ok true
        · exact ih
      · exact .of_error (hP _ _ _)

theorem faultsIn_unlessSkipped {directives : List Directive} {kept after : Unit → Expansion}
    (hr : Outcome.FailsIn (r.skips directives) P) (hkept : (kept ()).FaultsIn P)
    (hafter : (after ()).FaultsIn P) : (r.unlessSkipped directives kept after).FaultsIn P := by
  rw [unlessSkipped]
  split
  · next e h => exact .fault (hr e h)
  · exact hafter
  · exact hkept

mutual

/-- One selection brings the faults of directives, of what is below and of fragments. -/
theorem faultsIn_selection (hr : ∀ directives, Outcome.FailsIn (r.skips directives) P)
    (hbelow : ∀ expand, below? = some expand → ∀ ss, (expand ss).FaultsIn P)
    (hopening : ∀ name after, (after ()).FaultsIn P → (opening name after).FaultsIn P)
    (s : Selection) {after : Unit → Expansion} (hafter : (after ()).FaultsIn P) :
    (selection r below? opening s after).FaultsIn P := by
  cases s with
  | field name label arguments directives inner =>
    have hinner : (selections r below? opening inner fun _ => .done).FaultsIn P :=
      faultsIn_selections hr hbelow hopening inner .done
    simp only [selection]
    refine faultsIn_unlessSkipped (hr directives) (.field ?_ hafter) hafter
    split
    · next expand => exact hbelow expand rfl inner
    · exact hinner
  | spread name directives =>
    rw [selection]
    exact faultsIn_unlessSkipped (hr directives) (hopening name after hafter) hafter
  | inline directives inner =>
    rw [selection]
    exact faultsIn_unlessSkipped (hr directives)
      (faultsIn_selections hr hbelow hopening inner hafter) hafter

/-- The faults of what selections ask for are those of directives, of opened fragments and of what
comes after the selections. -/
theorem faultsIn_selections (hr : ∀ directives, Outcome.FailsIn (r.skips directives) P)
    (hbelow : ∀ expand, below? = some expand → ∀ ss, (expand ss).FaultsIn P)
    (hopening : ∀ name after, (after ()).FaultsIn P → (opening name after).FaultsIn P)
    (ss : List Selection) {after : Unit → Expansion} (hafter : (after ()).FaultsIn P) :
    (selections r below? opening ss after).FaultsIn P := by
  cases ss with
  | nil =>
    rw [selections]
    exact hafter
  | cons s ss =>
    rw [selections]
    exact faultsIn_selection hr hbelow hopening s (faultsIn_selections hr hbelow hopening ss hafter)

end

variable {d : Document}

/-- Faults of a row at any depth of opened fragments, by the limit on how many may still open. -/
theorem faultsIn_within (hr : ∀ directives, Outcome.FailsIn (r.skips directives) P)
    (hbelow : ∀ expand, below? = some expand → ∀ ss, (expand ss).FaultsIn P)
    (hd : ∀ opened name, Outcome.FailsIn (d.enter opened name) P) (more : Nat)
    (opened : List String) (ss : List Selection) {after : Unit → Expansion}
    (hafter : (after ()).FaultsIn P) : (within r d below? more opened ss after).FaultsIn P := by
  induction more generalizing opened ss after with
  | zero =>
    rw [within]
    refine faultsIn_selections hr hbelow (fun name after hafter => ?_) ss hafter
    split
    · next e h => exact .fault (hd opened name e h)
    · exact hafter
  | succ more ih =>
    rw [within]
    refine faultsIn_selections hr hbelow (fun name after hafter => ?_) ss hafter
    split
    · next e h => exact .fault (hd opened name e h)
    · next fragment _ => exact ih (name :: opened) fragment.selections hafter

/-- An expansion fails where a directive cannot be decided or a fragment not entered, nowhere else.
-/
theorem faultsIn_expand (hr : ∀ directives, Outcome.FailsIn (r.skips directives) P)
    (hd : ∀ opened name, Outcome.FailsIn (d.enter opened name) P)
    (ss : List Selection) : (r.expand d ss).FaultsIn P :=
  faultsIn_within hr (by simp) hd _ [] ss .done

theorem faultsIn_expandRoot (hr : ∀ directives, Outcome.FailsIn (r.skips directives) P)
    (hd : ∀ opened name, Outcome.FailsIn (d.enter opened name) P)
    (ss : List Selection) : (r.expandRoot d ss).FaultsIn P := by
  refine faultsIn_within hr ?_ hd _ [] ss .done
  rintro _ ⟨⟩ ss
  exact faultsIn_expand hr hd ss

end Reading

end EntityGraph
