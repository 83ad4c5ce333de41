/-
Completeness and entailment. A proof is complete as soon as its last line looks like the goal and no
assumption is open, whatever its steps cite, so the premises need not entail its goal
(`exists_complete_not_entailed`). They do where the last line entails the goal and the steps that it rests on
were added with care (`entailed_of_complete`); what else the proof holds does not matter.
-/
import Deduction.Proofs.Proof.Soundness

namespace Deduction

namespace Proof

/-- The premises entail the goal. -/
def Entailed (p : Proof) : Prop :=
  ∀ v, (∀ t ∈ p.premises, Holds v t) → Holds v p.goal

attribute [local instance] CallStack.usual

/-- Complete proofs of goals that the premises do not entail: by a fact from a closed scope, by a fact that
only looks like the antecedent of a conditional, and with a last line that only looks like the goal. -/
theorem exists_complete_not_entailed :
    (∃ p, start "q" none = .ok p ∧
      (p.after [.extend .assume [] (some "q"), .extend .impliesIntro [] none,
        .extend .modusPonens [1, 2] none]).complete = true ∧ ¬ p.Entailed) ∧
    (∃ p, start "r" (some "disjunction") = .ok p ∧
      (p.after [.extend .assume [] (some "(p | q) ^ r"), .extend .andElimRight [2] none,
        .extend .impliesIntro [] none, .extend .orIntroLeft [1] (some "q ^ r"),
        .extend .modusPonens [5, 4] none]).complete = true ∧ ¬ p.Entailed) ∧
    (∃ p, start "(p | q) ^ r" (some "disjunction") = .ok p ∧
      (p.after [.extend .orIntroLeft [1] (some "q ^ r")]).complete = true ∧ ¬ p.Entailed) := by
  refine ⟨⟨_, rfl, by decide +kernel, fun h => ?_⟩, ⟨_, rfl, by decide +kernel, fun h => ?_⟩,
    ⟨_, rfl, by decide +kernel, fun h => ?_⟩⟩
  · exact absurd (h (fun _ => false) (by decide +kernel)) (by decide +kernel)
  · exact absurd (h (fun n => n == "p") (by decide +kernel)) (by decide +kernel)
  · exact absurd (h (fun n => n == "p") (by decide +kernel)) (by decide +kernel)

/-- What a step rests on: the step itself, and all that a step that it rests on cites. -/
inductive RestsOn (p : Proof) (i : Int) : Int → Prop
  | self : RestsOn p i i
  | cited {s : Step} {d : Int} : s ∈ p.steps → RestsOn p i s.id → d ∈ s.dependencies → RestsOn p i d

/-- A set of steps that has with a step all that the step cites has all that one of them rests on. -/
theorem RestsOn.mem {p : Proof} {i j : Int} (h : p.RestsOn i j) {used : List Int} (hi : i ∈ used)
    (hused : ∀ s ∈ p.steps, s.id ∈ used → ∀ d ∈ s.dependencies, d ∈ used) : j ∈ used := by
  induction h with
  | self => exact hi
  | cited hs _ hd ih => exact hused _ hs ih _ hd

/-- Only the steps of the proof matter. -/
theorem Careful.congr [CallStack] {fits : Step → Step → Prop} {p q : Proof} {s : Step} (hpq : p.steps = q.steps)
    (h : p.Careful fits s) : q.Careful fits s := by
  rcases p with ⟨_, _, steps, _, _⟩
  rcases q with ⟨_, _, _, _, _⟩
  cases hpq
  exact h

/-- The premises entail the goal of a complete proof if the last line entails the goal, and each step that
the last line rests on was added citing only steps in open scopes, by modus ponens only from a fact that
entails the antecedent of the conditional. -/
theorem entailed_of_complete [CallStack] (goal : String) (kb : Option String) (p : Proof)
    (h : start goal kb = .ok p) (changes : List Change) (hc : (p.after changes).complete = true) (s : Step)
    (hs : (p.after changes).last? = some s)
    (hcare : ∀ t ∈ (p.after changes).steps, (p.after changes).RestsOn s.id t.id →
      ((p.after changes).before t.id).Careful Step.EntailsAntecedentOf t)
    (hgoal : Entails s.formula goal) : (p.after changes).Entailed := by
  obtain ⟨steps, hq, hg⟩ := grown_of_start h (throughout_true p changes)
  rw [hq] at hc hs hcare ⊢
  have hsupp : Supported p steps ((p.withSteps steps).RestsOn s.id) := by
    constructor
    · intro pre t post hsteps hrest
      -- with numbers in order, the proof before a step is that of the steps in front of it
      have hmem : t ∈ (p.withSteps steps).steps := by rw [withSteps_steps, hsteps]; simp
      have hbefore := before_steps (hg.numbered (start_numbered h)) (p := p.withSteps steps) hsteps
      exact (hcare t hmem hrest).congr hbefore
    · intro t ht hrest d hd
      exact .cited ht hrest hd
  intro v hv
  have hlast : WritesTrue v s.formula :=
    hg.true_of_complete (fun t ht => (start_steps h t ht).2.1) (fun t ht => hv t.formula (start_steps h t ht).1)
      hsupp hc hs .self
  obtain ⟨⟨g, hread⟩, hp⟩ := start_ok h
  have hsame : (p.withSteps steps).goal = goal := by rw [withSteps_goal, hp]; rfl
  rw [hsame]
  exact ⟨g, hread, (hgoal v hlast).eval hread⟩

/-- A complete proof with a step from a closed scope that its last line does not rest on. -/
theorem entailed_of_complete_aside :
    ∃ p, start "q" (some "modus-ponens") = .ok p ∧
      (p.after [.extend .assume [] (some "r"), .extend .impliesIntro [] none, .extend .modusPonens [3, 4] none,
        .extend .modusPonens [1, 2] none]).complete = true ∧
      (p.after [.extend .assume [] (some "r"), .extend .impliesIntro [] none, .extend .modusPonens [3, 4] none,
        .extend .modusPonens [1, 2] none]).Entailed := by
  have hproof : ∃ p, start "q" (some "modus-ponens") = .ok p ∧
      let q := p.after [.extend .assume [] (some "r"), .extend .impliesIntro [] none,
        .extend .modusPonens [3, 4] none, .extend .modusPonens [1, 2] none]
      q.complete = true ∧ q.last?.map (fun s => (s.id, s.formula)) = some (6, "q") ∧
      (∀ t ∈ q.steps, t.id ∈ [6, 1, 2] → ∀ d ∈ t.dependencies, d ∈ [6, 1, 2]) ∧
      ∀ t ∈ q.steps, t.id ∈ [6, 1, 2] →
        (q.before t.id).Careful (fun fact conditional => fact.isAntecedentOf conditional) t :=
    ⟨_, rfl, by decide +kernel, by decide +kernel, by decide +kernel, by decide +kernel⟩
  obtain ⟨p, hp, hc, hlast, hcited, hcare⟩ := hproof
  obtain ⟨s, hs, hparts⟩ := Option.map_eq_some_iff.1 hlast
  obtain ⟨hid, hformula⟩ := Prod.mk.inj hparts
  refine ⟨p, hp, hc, entailed_of_complete "q" (some "modus-ponens") p hp _ hc s hs (fun t ht hrest => ?_) ?_⟩
  · have hused : t.id ∈ [6, 1, 2] := hrest.mem (by rw [hid]; decide) hcited
    exact (hcare t ht hused).mono fun _ _ => .of_isAntecedentOf
  · rw [hformula]
    exact fun v hv => hv

end Proof

end Deduction
