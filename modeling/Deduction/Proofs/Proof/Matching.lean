/-
When a proof recognizes a formula that it has already. Modus ponens compares the text of a fact with the
display text of an antecedent, and the test for completeness compares the last line with the goal, both by
their loose keys. So a formula is recognized where it is spelled alike, whatever its parentheses and blanks
(`matches_iff_spelling`), and is not where one text has "&&" and the other "^" (`exists_same_tree_unmatched`).
-/
import Deduction.Proofs.Formula.LooseKey
import Deduction.Proofs.Formula.RoundTrip
import Deduction.Proofs.Proof.Soundness

namespace Deduction

/-- The formula of the step, if its text is one, is not too tall to be written. -/
def Step.Renders [CallStack] (s : Step) : Prop :=
  ∀ f, Formula.read s.formula = .ok f → ∃ text, f.walk Formula.display = .ok text

theorem Step.Renders.of_read [CallStack] {s : Step} {f : Formula} {text : String} (h : Formula.read s.formula = .ok f)
    (hf : f.walk Formula.display = .ok text) : s.Renders := by
  intro g hg
  cases h.symm.trans hg
  exact ⟨text, hf⟩

namespace Proof

/-! ## Modus ponens on two steps -/

/-- What is loosely the antecedent of a conditional has fewer nodes than the conditional. -/
theorem size_lt_of_sameLoosely {s t : String} {f a c : Formula} (hs : Formula.read s = .ok f)
    (ht : Formula.read t = .ok (.binary .implies a c)) (h : sameLoosely s a.display = true) :
    f.size < (Formula.binary .implies a c).size := by
  obtain ⟨m, hm⟩ := Formula.writes_of_read hs
  have hnamed := (Formula.Readable.of_read ht).named.1
  rw [hm.size_eq (Formula.display_writes hnamed) h, Formula.size]
  omega

section Detached

variable [CallStack]

/-- Modus ponens writes the consequent of the second step, if that can be detached, and else that of the first. -/
theorem modusPonens_eq {p : Proof} {i j : Int} {a b : Step} (ha : p.step? i = some a) (hb : p.step? j = some b)
    {r r' : Option String} (hr : detach a b = .ok r) (hr' : detach b a = .ok r') :
    p.modusPonens [i, j] =
      match r.or r' with
      | some c => p.newStep c .modusPonens [i, j] (pairText "MP" i ", " j) p.depth
      | none => .error .unsuited := by
  have hselect : p.selectTwo [i, j] = .ok ((i, a), (j, b)) := by simp [selectTwo, ha, hb]
  unfold modusPonens
  rw [hselect]
  dsimp only [bind, Except.bind]
  rw [hr]
  rcases r with _ | c
  · dsimp only
    rw [hr']
    rcases r' with _ | c <;> rfl
  · rfl

/-- Modus ponens gives a step if one of the two is detached from the other, in either order. -/
theorem modusPonens_isOk_iff {p : Proof} {i j : Int} {a b : Step} (ha : p.step? i = some a)
    (hb : p.step? j = some b) (hdepth : 0 ≤ p.depth) (hi : i < p.nextId) (hj : j < p.nextId)
    {r r' : Option String} (hr : detach a b = .ok r) (hr' : detach b a = .ok r') :
    (∃ s, p.modusPonens [i, j] = .ok s) ↔ r.isSome = true ∨ r'.isSome = true := by
  have hdeps : ∀ d ∈ [i, j], d < p.nextId := by simp [hi, hj]
  rw [modusPonens_eq ha hb hr hr']
  rcases r with _ | c
  · rcases r' with _ | c
    · simp
    · simpa using newStep_isOk_iff.2 ⟨hdepth, hdeps⟩
  · simpa using newStep_isOk_iff.2 ⟨hdepth, hdeps⟩

/-- The fact is detached from a conditional whose parts are not too tall to be written if it is loosely the
antecedent. -/
theorem detach_of_read (fact : Step) {conditional : Step} {a c : Formula} {x y : String}
    (hread : Formula.read conditional.formula = .ok (.binary .implies a c))
    (hx : a.walk Formula.display = .ok x) (hy : c.walk Formula.display = .ok y) :
    detach fact conditional = .ok (if sameLoosely fact.formula x then some y else none) := by
  have ha : a.written = .ok x := by rw [Formula.written, hx]
  have hc : c.written = .ok y := by rw [Formula.written, hy]
  unfold detach
  rw [hread]
  dsimp only [bind, Except.bind]
  rw [ha, hc]
  dsimp only
  split <;> rfl

theorem size_lt_of_detach {fact conditional : Step} {text : String} {f g : Formula}
    (h : detach fact conditional = .ok (some text)) (hf : Formula.read fact.formula = .ok f)
    (hg : Formula.read conditional.formula = .ok g) : f.size < g.size := by
  obtain ⟨a, c, hread, hsame, -⟩ := detach_ok h
  cases hread.symm.trans hg
  exact size_lt_of_sameLoosely hf hread hsame

/-- Whether a fact is detached can be told unless the conditional is too tall. -/
theorem exists_detach {conditional : Step} (h : conditional.Renders) (fact : Step) :
    ∃ r, detach fact conditional = .ok r := by
  by_cases himplies : ∃ a c, Formula.read conditional.formula = .ok (.binary .implies a c)
  · obtain ⟨a, c, hread⟩ := himplies
    obtain ⟨text, htext⟩ := h _ hread
    have htall := Formula.height_le_of_walk htext
    simp only [Formula.height] at htall
    exact ⟨_, detach_of_read fact hread (Formula.walk_of_le (by omega) _) (Formula.walk_of_le (by omega) _)⟩
  · refine ⟨none, ?_⟩
    unfold detach
    split
    · rename_i a c hread
      exact absurd ⟨a, c, hread⟩ himplies
    · rfl

/-- Nothing is detached from the antecedent of a conditional. -/
theorem detach_from_antecedent {fact conditional : Step} {a c : Formula} {x : String}
    (hfact : Formula.read fact.formula = .ok (.binary .implies a c))
    (hread : Formula.read conditional.formula = .ok a) (hx : a.walk Formula.display = .ok x) :
    detach fact conditional = .ok none := by
  obtain ⟨_ | text, hr⟩ := exists_detach (.of_read hread hx) fact
  · exact hr
  · have hlt := size_lt_of_detach hr hfact hread
    simp only [Formula.size] at hlt
    omega

/-- A formula and a conditional with it as antecedent give a step by modus ponens, in either order, exactly when
the formula is spelled as the display text spells it. -/
theorem modusPonens_iff_spelling {p : Proof} {s t : Step} {a c : Formula} {x y : String}
    (hs : p.step? s.id = some s) (ht : p.step? t.id = some t) (hdepth : 0 ≤ p.depth) (hsid : s.id < p.nextId)
    (htid : t.id < p.nextId) (hreads : Formula.read s.formula = .ok a)
    (hreadt : Formula.read t.formula = .ok (.binary .implies a c)) (hx : a.walk Formula.display = .ok x)
    (hy : c.walk Formula.display = .ok y) :
    ((∃ r, p.modusPonens [s.id, t.id] = .ok r) ↔ spelling s.formula = spelling x) ∧
    ((∃ r, p.modusPonens [t.id, s.id] = .ok r) ↔ spelling s.formula = spelling x) := by
  have hdetach := detach_of_read s hreadt hx hy
  have hnone := detach_from_antecedent hreadt hreads hx
  have hspelling : sameLoosely s.formula x = true ↔ spelling s.formula = spelling x := by
    obtain ⟨m, hm⟩ := Formula.writes_of_read hreads
    rw [Formula.walk_ok hx]
    exact hm.sameLoosely_iff (Formula.display_writes (Formula.Readable.of_read hreads).named)
  rw [modusPonens_isOk_iff hs ht hdepth hsid htid hdetach hnone,
    modusPonens_isOk_iff ht hs hdepth htid hsid hnone hdetach, ← hspelling]
  cases sameLoosely s.formula x <;> simp

end Detached

/-! ## Recognition -/

/-- However a proof was changed since it was started: of two steps that are read as a formula and as a
conditional with that formula as antecedent, in either order, modus ponens gives a step exactly when the first
spells its formula as the display text does; and a last step that is read as the goal, at depth zero, completes
the proof exactly when it spells it as the goal does. -/
theorem matches_iff_spelling [CallStack] (goal : String) (kb : Option String) (p : Proof)
    (h : start goal kb = .ok p) (changes : List Change) :
    (∀ s ∈ (p.after changes).steps, ∀ t ∈ (p.after changes).steps, ∀ a c x y,
      Formula.read s.formula = .ok a → Formula.read t.formula = .ok (.binary .implies a c) →
      a.walk Formula.display = .ok x → c.walk Formula.display = .ok y → ∀ input,
      ((∃ r, (p.after changes).derive .modusPonens [s.id, t.id] input = .ok r) ↔
        spelling s.formula = spelling x) ∧
      ((∃ r, (p.after changes).derive .modusPonens [t.id, s.id] input = .ok r) ↔
        spelling s.formula = spelling x)) ∧
    ((p.after changes).depth = 0 → ∀ s f, (p.after changes).last? = some s →
      Formula.read s.formula = .ok f → Formula.read goal = .ok f →
      ((p.after changes).reached = true ↔ spelling s.formula = spelling goal)) := by
  have hwell : (p.after changes).WellFormed goal (KnowledgeBase.premisesOf kb) := by
    obtain ⟨steps, hq, hg⟩ := grown_of_start h (throughout_true p changes)
    obtain ⟨-, rfl⟩ := start_ok h
    rw [hq]
    exact hg.wellFormed
  constructor
  · intro s hs t ht a c x y hreads hreadt hx hy input
    obtain ⟨hfound, hlt⟩ := hwell.found hs
    obtain ⟨hfound', hlt'⟩ := hwell.found ht
    exact modusPonens_iff_spelling hfound hfound' hwell.depth_nonneg hlt hlt' hreads hreadt hx hy
  · intro hdepth s f hlast hreads hreadg
    obtain ⟨m, hm⟩ := Formula.writes_of_read hreads
    obtain ⟨n, hn⟩ := Formula.writes_of_read hreadg
    rw [reached_iff, ← hm.sameLoosely_iff hn, hwell.goal_eq]
    constructor
    · rintro ⟨u, hu, -, hsame⟩
      obtain rfl := Option.some.inj (hu.symm.trans hlast)
      exact hsame
    · intro hsame
      exact ⟨s, hlast, hdepth, hsame⟩

attribute [local instance] CallStack.usual

/-- Parentheses and blanks are no matter: a conjunction is found to be the antecedent of a conditional that was
written with more of both, and to be the goal. -/
theorem matches_iff_spelling_conjunction :
    ∃ p, start "p^q" (some "conjunction") = .ok p ∧
      (p.after [.extend .andIntro [1, 2] none]).reached = true ∧
      ∃ r, (p.after [.extend .andIntro [1, 2] none, .extend .assume [] (some "(p ^ (q)) -> r")]).derive
        .modusPonens [4, 3] none = .ok r := by
  have hproof : ∃ p s t u, start "p^q" (some "conjunction") = .ok p ∧
      (p.after [.extend .andIntro [1, 2] none]).last? = some u ∧ u.formula = "(p) ^ (q)" ∧
      (p.after [.extend .andIntro [1, 2] none]).depth = 0 ∧
      s ∈ (p.after [.extend .andIntro [1, 2] none, .extend .assume [] (some "(p ^ (q)) -> r")]).steps ∧
      t ∈ (p.after [.extend .andIntro [1, 2] none, .extend .assume [] (some "(p ^ (q)) -> r")]).steps ∧
      s.id = 3 ∧ s.formula = "(p) ^ (q)" ∧ t.id = 4 ∧ t.formula = "(p ^ (q)) -> r" :=
    ⟨_, _, _, _, rfl, rfl, rfl, rfl, .tail _ (.tail _ (.head _)), .tail _ (.tail _ (.tail _ (.head _))),
      rfl, rfl, rfl, rfl⟩
  obtain ⟨p, s, t, u, hp, hlast, hu, hdepth, hs, ht, hsid, hsf, htid, htf⟩ := hproof
  obtain ⟨-, hreached⟩ := matches_iff_spelling "p^q" (some "conjunction") p hp [.extend .andIntro [1, 2] none]
  obtain ⟨hmatched, -⟩ := matches_iff_spelling "p^q" (some "conjunction") p hp
    [.extend .andIntro [1, 2] none, .extend .assume [] (some "(p ^ (q)) -> r")]
  refine ⟨p, hp, (hreached hdepth u _ hlast (by rw [hu]; rfl) rfl).2 (by rw [hu]; decide +kernel), ?_⟩
  have hstep := (hmatched s hs t ht (.binary .and (.var "p") (.var "q")) (.var "r") "p ^ q" "r"
    (by rw [hsf]; rfl) (by rw [htf]; rfl) (by decide +kernel) (by decide +kernel) none).2
  rw [hsid, htid] at hstep
  exact hstep.2 (by rw [hsf]; decide +kernel)

/-- A fact with "&&" for "^" is not found to be the antecedent of a conditional, though both are read as one
formula, and a last line with "^" for "&&" does not complete the proof of the goal that it is read as. -/
theorem exists_same_tree_unmatched :
    (∃ p s t a c x y, start "q" none = .ok p ∧
      s ∈ (p.after [.extend .assume [] (some "p && r"), .extend .assume [] (some "(p ^ r) -> q")]).steps ∧
      t ∈ (p.after [.extend .assume [] (some "p && r"), .extend .assume [] (some "(p ^ r) -> q")]).steps ∧
      Formula.read s.formula = .ok a ∧ Formula.read t.formula = .ok (.binary .implies a c) ∧
      a.walk Formula.display = .ok x ∧ c.walk Formula.display = .ok y ∧
      (p.after [.extend .assume [] (some "p && r"), .extend .assume [] (some "(p ^ r) -> q")]).derive
        .modusPonens [s.id, t.id] none = .error .unsuited ∧
      (p.after [.extend .assume [] (some "p && r"), .extend .assume [] (some "(p ^ r) -> q")]).derive
        .modusPonens [t.id, s.id] none = .error .unsuited) ∧
    ∃ p s f, start "p && q" (some "conjunction") = .ok p ∧
      (p.after [.extend .andIntro [1, 2] none]).depth = 0 ∧
      (p.after [.extend .andIntro [1, 2] none]).last? = some s ∧ Formula.read s.formula = .ok f ∧
      Formula.read "p && q" = .ok f ∧ (p.after [.extend .andIntro [1, 2] none]).reached = false := by
  constructor
  · exact ⟨_, _, _, .binary .and (.var "p") (.var "r"), .var "q", "p ^ r", "q", rfl, .head _, .tail _ (.head _),
      rfl, rfl, by decide +kernel, by decide +kernel, by decide +kernel, by decide +kernel⟩
  · exact ⟨_, _, .binary .and (.var "p") (.var "q"), rfl, rfl, rfl, rfl, rfl, by decide +kernel⟩

end Proof

end Deduction
