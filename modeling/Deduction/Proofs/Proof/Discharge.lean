/-
Open assumptions can always be discharged. Before the end of a scope is tried, only the depth is looked at; to
apply, it also needs an assumption at that depth and a last step that stands there. Behind any changes a proof
that is not at depth zero has both (`impliesIntro_isOk_iff`), because the last assumption of its depth is that
of the innermost open scope. So the scopes can be ended one after another, from the inside out, until none is
open, and the last line then has all the assumptions in front of it, the outermost first (`discharges_after`).
-/
import Deduction.Proof.Applicability
import Deduction.Proofs.Proof.Bracket
import Mathlib.Data.List.Basic

namespace Deduction

namespace Proof

/-- The proof after the end of a scope has been applied to each of the selections and texts in turn. -/
def closeScopes [CallStack] (p : Proof) (uses : List (List Int × Option String)) : Except Refusal Proof :=
  uses.foldlM (fun q use => q.extend .impliesIntro use.1 use.2) p

/-- The text with the assumptions as antecedents in front of it, the first one outermost. -/
def discharged (assumptions : List String) (conclusion : String) : String :=
  assumptions.foldr (fun a c => "(" ++ a ++ ") -> (" ++ c ++ ")") conclusion

/-! ## The end of one scope -/

theorem obstacle?_impliesIntro (p : Proof) {rule : Rule} (h : rule.id = .impliesIntro) :
    p.obstacle? rule = none ↔ 0 < p.depth := by
  unfold obstacle?
  rw [h]
  dsimp only
  split <;> simp [*]

/-- A well-formed proof that is not at depth zero has a last step, which stands as deep as the proof. -/
theorem WellFormed.exists_last {goal : String} {premises : List String} {p : Proof}
    (h : p.WellFormed goal premises) (hdepth : p.depth ≠ 0) : ∃ c, p.last? = some c ∧ c.depth = p.depth := by
  have heq := h.depth_eq
  rcases hlast : p.last? with _ | c
  · rw [hlast] at heq
    exact absurd heq hdepth
  · rw [hlast] at heq
    exact ⟨c, rfl, heq.symm⟩

section Scopes

variable {p : Proof} {steps scopes : List Step} {goal : String} {premises : List String}

/-- The end of a scope applies exactly when a scope is open. -/
theorem ScopesOf.impliesIntro_isOk_iff (h : ScopesOf p steps scopes)
    (hw : (p.withSteps steps).WellFormed goal premises) :
    (∃ s, (p.withSteps steps).impliesIntro = .ok s) ↔ 0 < (p.withSteps steps).depth := by
  constructor
  · rintro ⟨s, hs⟩
    have hne := (impliesIntro_ok hs).1
    have hnonneg := hw.depth_nonneg
    omega
  · intro hpos
    have hne : (p.withSteps steps).depth ≠ 0 := by omega
    obtain ⟨c, hc, hcd⟩ := hw.exists_last hne
    rcases scopes with _ | ⟨a, outer⟩
    · exact absurd h.depth hne
    · have ha := h.lastAssumption?_depth
      have hdeps : ∀ d ∈ [a.id, c.id], d < (p.withSteps steps).nextId := by
        have hlta := (hw.found (mem_of_lastAssumption? ha).1).2
        have hltc := (hw.found (List.mem_of_getLast? hc)).2
        simpa using And.intro hlta hltc
      have hnonneg : 0 ≤ (p.withSteps steps).depth - 1 := by omega
      obtain ⟨s, hs⟩ := newStep_isOk_iff.2 ⟨hnonneg, hdeps⟩
      refine ⟨s, ?_⟩
      unfold impliesIntro
      rw [if_neg hne, ha, hc]
      dsimp only
      rw [if_pos hcd]
      exact hs

/-- The assumption of the open scope with `k` others around it is the last one at its depth. -/
theorem ScopesOf.lastAssumption?_reverse (h : ScopesOf p steps scopes) {k : Nat} {a : Step}
    (hk : scopes.reverse[k]? = some a) : (p.withSteps steps).lastAssumption? (k + 1) = some a := by
  obtain ⟨hlt, hget⟩ := List.getElem?_eq_some_iff.1 hk
  have hsplit : scopes.reverse = scopes.reverse.take k ++ a :: scopes.reverse.drop (k + 1) := by
    rw [← hget, List.getElem_cons_drop, List.take_append_drop]
  have hscopes := congrArg List.reverse hsplit
  rw [List.reverse_reverse, List.reverse_append, List.reverse_cons, List.append_assoc,
    List.singleton_append] at hscopes
  have hlast := h.last _ a _ hscopes
  rwa [List.length_reverse, List.length_take, Nat.min_eq_left (Nat.le_of_lt hlt)] at hlast

/-- The end of a scope joins the assumption of the innermost one to the last line, and leaves the others. -/
theorem ScopesOf.extend_impliesIntro [CallStack] {a : Step} {outer : List Step} (h : ScopesOf p steps (a :: outer))
    (hw : (p.withSteps steps).WellFormed goal premises) (selected : List Int) (input : Option String) :
    ∃ s c, (p.withSteps steps).extend .impliesIntro selected input = .ok (p.withSteps (steps ++ [s])) ∧
      (p.withSteps steps).Derived s ∧ steps.getLast? = some c ∧
      s.formula = "(" ++ a.formula ++ ") -> (" ++ c.formula ++ ")" ∧ ScopesOf p (steps ++ [s]) outer := by
  have hpos : 0 < (p.withSteps steps).depth := by
    rw [h.depth, List.length_cons]
    omega
  obtain ⟨s, hs⟩ := (h.impliesIntro_isOk_iff hw).2 hpos
  have hderive : (p.withSteps steps).derive .impliesIntro selected input = .ok s := hs
  obtain ⟨-, b, c, hb, hc, -, hnext⟩ := impliesIntro_ok hs
  obtain ⟨_, hinner⟩ := h.innermost hb (by omega)
  obtain ⟨rfl, rfl⟩ := List.cons.inj hinner
  rcases hq : (p.withSteps steps).extend .impliesIntro selected input with e | q
  · unfold extend at hq
    rw [hderive] at hq
    cases hq
  · obtain ⟨s', hs', hd, rfl⟩ := extend_ok hq
    cases hderive.symm.trans hs'
    exact ⟨s, c, rfl, hd, hc, hnext.formula.trans (combined_implies a.formula c.formula),
      h.close hnext.rule hnext.depth⟩

end Scopes

/-! ## The end of all scopes -/

/-- As many ends of scopes as there are open ones close them all. -/
theorem Grown.closeScopes [CallStack] {goal : String} {premises : List String} {steps scopes : List Step}
    (hg : Grown (fun _ _ => True) (ofPremises goal premises) steps)
    (h : ScopesOf (ofPremises goal premises) steps scopes) (uses : List (List Int × Option String))
    (huses : uses.length = scopes.length) :
    ∃ steps', ((ofPremises goal premises).withSteps steps).closeScopes uses =
        .ok ((ofPremises goal premises).withSteps steps') ∧
      ((ofPremises goal premises).withSteps steps').depth = 0 ∧
      steps'.getLast?.map (·.formula) =
        steps.getLast?.map fun c => discharged (scopes.reverse.map (·.formula)) c.formula := by
  -- on the open scopes, the innermost of which the first end closes
  induction scopes generalizing steps uses with
  | nil =>
    obtain rfl := List.eq_nil_of_length_eq_zero huses
    exact ⟨steps, rfl, h.depth, rfl⟩
  | cons a outer ih =>
    obtain ⟨⟨selected, input⟩, rest, rfl⟩ := List.exists_cons_of_length_eq_add_one huses
    obtain ⟨s, c, hextend, hd, hc, hformula, hscopes⟩ := h.extend_impliesIntro hg.wellFormed selected input
    obtain ⟨steps', hclosed, hdepth, hlast⟩ :=
      ih (hg.step hd trivial) hscopes rest (Nat.succ.inj huses)
    refine ⟨steps', ?_, hdepth, ?_⟩
    · unfold Proof.closeScopes
      rw [List.foldlM_cons, hextend]
      exact hclosed
    · rw [hlast, List.getLast?_concat, hc, Option.map_some, Option.map_some, hformula, List.reverse_cons,
        List.map_append, discharged, discharged, List.foldr_append]
      rfl

/-- However a proof was changed since it was started: the end of a scope gives a step exactly when the check of
applicability has nothing against it, which is when the proof is not at depth zero. And to each depth up to that
of the proof there is a last assumption, so that after as many ends of scopes as the proof is deep, whatever is
selected and given for them, no scope is open and the last line is the one from before with all these assumptions
in front of it, in order of depth. -/
theorem discharges_after [CallStack] (goal : String) (kb : Option String) (p : Proof)
    (h : start goal kb = .ok p) (changes : List Change) :
    (∀ (rule : Rule) (selected : List Int) (input : Option String), rule.id = .impliesIntro →
      ((∃ s, (p.after changes).derive rule.id selected input = .ok s) ↔
        (p.after changes).obstacle? rule = none) ∧
      ((p.after changes).obstacle? rule = none ↔ 0 < (p.after changes).depth)) ∧
    ∃ assumed : List Step, (assumed.length : Int) = (p.after changes).depth ∧
      (∀ (k : Nat) (a : Step), assumed[k]? = some a → (p.after changes).lastAssumption? (k + 1) = some a) ∧
      ∀ uses : List (List Int × Option String), uses.length = assumed.length →
        ∃ q, (p.after changes).closeScopes uses = .ok q ∧ q.depth = 0 ∧
          q.last?.map (·.formula) =
            (p.after changes).last?.map fun c => discharged (assumed.map (·.formula)) c.formula := by
  obtain ⟨steps, hq, hg⟩ := grown_of_start h (throughout_true p changes)
  obtain ⟨-, rfl⟩ := start_ok h
  obtain ⟨scopes, hscopes⟩ := hg.scopesOf fun s hs => ⟨(premiseSteps_mem hs).2.1, (premiseSteps_mem hs).2.2.2⟩
  rw [hq]
  constructor
  · intro rule selected input hrule
    have hobstacle := obstacle?_impliesIntro ((ofPremises goal (KnowledgeBase.premisesOf kb)).withSteps steps) hrule
    refine ⟨?_, hobstacle⟩
    rw [hobstacle, hrule]
    exact hscopes.impliesIntro_isOk_iff hg.wellFormed
  · refine ⟨scopes.reverse, ?_, ?_, ?_⟩
    · rw [List.length_reverse]
      exact hscopes.depth.symm
    · exact fun k a hk => hscopes.lastAssumption?_reverse hk
    · intro uses huses
      rw [List.length_reverse] at huses
      obtain ⟨steps', hclosed, hdepth, hlast⟩ := hg.closeScopes hscopes uses huses
      exact ⟨_, hclosed, hdepth, hlast⟩

attribute [local instance] CallStack.usual

/-- A scope that was closed is opened again by a deletion; both scopes are then closed, and neither a selection nor
a text stands in the way. -/
theorem discharges_after_reopening :
    ∃ p q, start "p -> q -> p" none = .ok p ∧
      (p.after [.extend .assume [] (some "p"), .extend .assume [] (some "q"), .extend .impliesIntro [] none,
        .delete 3, .extend .andIntro [2, 1] none]).closeScopes [([], none), ([7], some "r")] = .ok q ∧
      q.depth = 0 ∧ q.last?.map (·.formula) = some "(p) -> ((q) -> ((q) ^ (p)))" := by
  obtain ⟨p, r, hp, hr, hdepth, houter, hinner, hlast⟩ : ∃ p r, start "p -> q -> p" none = .ok p ∧
      p.after [.extend .assume [] (some "p"), .extend .assume [] (some "q"), .extend .impliesIntro [] none,
        .delete 3, .extend .andIntro [2, 1] none] = r ∧
      r.depth = 2 ∧ (r.lastAssumption? 1).map (·.formula) = some "p" ∧
      (r.lastAssumption? 2).map (·.formula) = some "q" ∧ r.last?.map (·.formula) = some "(q) ^ (p)" :=
    ⟨_, _, rfl, rfl, by decide +kernel, by decide +kernel, by decide +kernel, by decide +kernel⟩
  obtain ⟨-, assumed, hlen, hassumed, hclose⟩ := discharges_after "p -> q -> p" none p hp
    [.extend .assume [] (some "p"), .extend .assume [] (some "q"), .extend .impliesIntro [] none, .delete 3,
      .extend .andIntro [2, 1] none]
  rw [hr] at hlen hassumed hclose
  rw [hdepth] at hlen
  obtain ⟨a, b, rfl⟩ := List.length_eq_two.1 (Int.ofNat_inj.1 hlen)
  rw [show r.lastAssumption? 1 = some a from hassumed 0 a rfl, Option.map_some, Option.some_inj] at houter
  rw [show r.lastAssumption? 2 = some b from hassumed 1 b rfl, Option.map_some, Option.some_inj] at hinner
  obtain ⟨c, hc, hformula⟩ := Option.map_eq_some_iff.1 hlast
  obtain ⟨q, hq, hzero, hdischarged⟩ := hclose [([], none), ([7], some "r")] rfl
  refine ⟨p, q, hp, hr ▸ hq, hzero, ?_⟩
  rw [hdischarged, hc, Option.map_some, hformula, List.map_cons, List.map_cons, houter, hinner]
  rfl

end Proof

end Deduction
