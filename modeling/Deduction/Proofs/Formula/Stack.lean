/-
A machine on top of a stack. What a machine reads from an empty stack, it reads from one on which a row of its
level may begin, and then the run goes on behind the formula with the stack below (`run_onTop`). So a run falls
into runs of tighter levels, each of which ends where nothing of its level goes on (`next_of_run`, `run_stops`).
-/
import Deduction.Proofs.Formula.Machine

namespace Deduction

/-- The connective that a token writes, if it is one. -/
def Token.connective? (t : Token) : Option Connective :=
  match t.kind with
  | .operator op => some op
  | _ => none

theorem Token.connective?_eq_some {t : Token} {op : Connective} :
    t.connective? = some op ↔ t.kind = .operator op := by
  unfold connective?
  split
  · rename_i c hc
    rw [hc]
    simp
  · rename_i hother
    constructor
    · intro h
      cases h
    · intro h
      exact absurd h (hother op)

namespace Parser

/-- The token ahead; behind the last one stands the end. -/
def nextToken (ts : List Token) : Token :=
  ts.head?.getD Token.ending

/-! ## Reductions on top of a stack -/

theorem takesFirst_none (op : Connective) : takesFirst op none = true := rfl

section Reductions

variable {next : Option Connective} {f a : Formula} {stack stack' : List Frame} {depth depth' : Int}

/-- What is below a stack is reached when the stack is used up. -/
theorem reduce_append (h : reduce next f stack depth = (a, stack', depth')) (below : List Frame) :
    reduce next f (stack ++ below) depth =
      if stack' = [] then reduce next a below depth' else (a, stack' ++ below, depth') := by
  induction stack generalizing f depth with
  | nil =>
    rw [reduce_nil] at h
    cases h
    rfl
  | cons top stack ih =>
    rcases top with _ | _ | ⟨op, b⟩
    · rw [reduce_paren] at h
      cases h
      exact reduce_paren _ _ _ _
    · rw [reduce_neg] at h
      rw [List.cons_append, reduce_neg, ih h]
    · cases htakes : takesFirst op next with
      | true =>
        rw [reduce_left_of_takes htakes] at h
        rw [List.cons_append, reduce_left_of_takes htakes, ih h]
      | false =>
        rw [reduce_left_of_not_takes htakes] at h
        cases h
        exact reduce_left_of_not_takes htakes _ _ _ _

/-- Where no connective is next, what was reduced in front of one is reduced further. -/
theorem reduce_none_of_reduce (h : reduce next f stack depth = (a, stack', depth')) :
    reduce none f stack depth = reduce none a stack' depth' := by
  induction stack generalizing f depth with
  | nil =>
    rw [reduce_nil] at h
    cases h
    rfl
  | cons top stack ih =>
    rcases top with _ | _ | ⟨op, b⟩
    · rw [reduce_paren] at h
      cases h
      rfl
    · rw [reduce_neg] at h
      rw [reduce_neg, ih h]
    · cases htakes : takesFirst op next with
      | true =>
        rw [reduce_left_of_takes htakes] at h
        rw [reduce_left_of_takes (takesFirst_none op), ih h]
      | false =>
        rw [reduce_left_of_not_takes htakes] at h
        cases h
        rfl

/-- Where no connective is next, only a parenthesis stops a reduction. -/
theorem reduce_none_cases (f : Formula) (stack : List Frame) (depth : Int) :
    (∃ a depth', reduce none f stack depth = (a, [], depth')) ∨
      ∃ a stack' depth', reduce none f stack depth = (a, .paren :: stack', depth') := by
  induction stack generalizing f depth with
  | nil => exact .inl ⟨f, depth, reduce_nil _ _ _⟩
  | cons top stack ih =>
    rcases top with _ | _ | ⟨op, b⟩
    · exact .inr ⟨f, stack, depth, reduce_paren _ _ _ _⟩
    · rw [reduce_neg]
      exact ih _ _
    · rw [reduce_left_of_takes (takesFirst_none op)]
      exact ih _ _

end Reductions

/-! ## Where a run stops -/

section Stops

variable {base : Level} {f g a : Formula} {stack below : List Frame} {depth depth' : Int} {ts : List Token}

theorem shift?_finish (m : Machine) {t : Token} (ht : t.kind = .finish) : m.shift? base t = none := by
  unfold Machine.shift? Machine.shiftOperator? Machine.shiftOperand?
  rw [ht]
  split
  · rfl
  · split <;> rfl

/-- A run ends at once at a token that stops the machine. -/
theorem run_of_stopped {m : Machine} (h : m.shift? base (nextToken ts) = none) (pos : Nat) :
    run base m pos ts = ((m.halt (nextToken ts)).1, ⟨ts, pos, (m.halt (nextToken ts)).2⟩) := by
  rcases ts with _ | ⟨t, ts⟩
  · rw [run]
    rfl
  · rw [run, show m.shift? base t = none from h]
    rfl

/-- A run goes on behind a token that joins the machine, which is not the end. -/
theorem run_of_shifted {m m' : Machine} (h : m.shift? base (nextToken ts) = some m') (pos : Nat) :
    ∃ t rest, ts = t :: rest ∧ m.shift? base t = some m' ∧ run base m pos ts = run base m' (pos + 1) rest := by
  rcases ts with _ | ⟨t, rest⟩
  · cases h.symm.trans (shift?_finish m rfl)
  · exact ⟨t, rest, rfl, h, run_cons h pos rest⟩

/-- A machine that has opened a level too many stops at whatever comes next. -/
theorem run_of_overflows {m : Machine} (h : m.overflows = true) (pos : Nat) :
    run base m pos ts = (.error (.nestedTooDeep (nextToken ts) nestingLimit), ⟨ts, pos, m.depth⟩) := by
  have hstop : m.shift? base (nextToken ts) = none := by rw [Machine.shift?, if_pos h]
  rw [run_of_stopped hstop, Machine.halt, if_pos h]

/-- Within the limit it makes no difference that a level has just been opened. -/
theorem run_of_fits (h : depth ≤ nestingLimit) (pos : Nat) :
    run base ⟨stack, depth, .opened⟩ pos ts = run base ⟨stack, depth, .operand⟩ pos ts := by
  have hshift : Machine.shift? base ⟨stack, depth, .opened⟩ (nextToken ts) =
      Machine.shift? base ⟨stack, depth, .operand⟩ (nextToken ts) := by
    rw [Ready.shift ⟨.inr rfl, h⟩, Ready.shift ⟨.inl rfl, h⟩]
    rfl
  rcases hs : Machine.shift? base ⟨stack, depth, .opened⟩ (nextToken ts) with _ | m'
  · rw [run_of_stopped hs, run_of_stopped (hshift ▸ hs)]
    have hfits : ¬ (nestingLimit : Int) < depth := by omega
    simp [Machine.halt, Machine.overflows, hfits]
  · obtain ⟨t, rest, rfl, -, hrun⟩ := run_of_shifted hs pos
    rw [hrun, run_cons (hshift ▸ hs)]

theorem halt_behind (stack : List Frame) (depth : Int) (f : Formula) (t : Token) :
    Machine.halt ⟨stack, depth, .operator f⟩ t =
      match reduce none f stack depth with
      | (a, [], depth) => (.ok a, depth)
      | (_, _, depth) => (.error (.unexpectedToken t closingExpected), depth) := by
  simp only [Machine.halt, Machine.overflows, reduceCtorEq, decide_false, Bool.false_and]
  rfl

/-- Only behind an operand does a machine end with a formula. -/
theorem operand_of_halt {m : Machine} {t : Token} (h : (m.halt t).1 = .ok f) : ∃ g, m.due = .operator g := by
  unfold Machine.halt at h
  split at h
  · cases h
  · split at h
    · exact ⟨_, ‹_›⟩
    · cases h

/-- Behind an operand a run goes by what the operand reduces to in front of the next connective. -/
theorem run_congr
    (h : reduce (nextToken ts).connective? f stack depth = reduce (nextToken ts).connective? g below depth')
    (pos : Nat) :
    run base ⟨stack, depth, .operator f⟩ pos ts = run base ⟨below, depth', .operator g⟩ pos ts := by
  have hnone : reduce none f stack depth = reduce none g below depth' := by
    rw [reduce_none_of_reduce h, ← reduce_none_of_reduce rfl]
  have hshift : Machine.shift? base ⟨stack, depth, .operator f⟩ (nextToken ts) =
      Machine.shift? base ⟨below, depth', .operator g⟩ (nextToken ts) := by
    rw [shift_behind, shift_behind]
    unfold Machine.shiftOperator?
    split
    · rename_i op ht
      rw [Token.connective?, ht] at h
      dsimp only at h ⊢
      rw [h]
    · rw [hnone]
    · rfl
  rcases hs : Machine.shift? base ⟨stack, depth, .operator f⟩ (nextToken ts) with _ | m'
  · rw [run_of_stopped hs, run_of_stopped (hshift ▸ hs), halt_behind, halt_behind, hnone]
  · obtain ⟨t, rest, rfl, -, hrun⟩ := run_of_shifted hs pos
    rw [hrun, run_cons (hshift ▸ hs)]

/-- Behind an operand that reduces to a whole formula a run ends with that formula, unless a connective of the
level or a tighter one is next. -/
theorem run_stops (h : reduce (nextToken ts).connective? f stack depth = (a, [], depth'))
    (hnext : ∀ op ∈ (nextToken ts).connective?, op.strength < base.strength) (pos : Nat) :
    run base ⟨stack, depth, .operator f⟩ pos ts = (.ok a, ⟨ts, pos, depth'⟩) := by
  have hstop : Machine.shift? base ⟨[], depth', .operator a⟩ (nextToken ts) = none := by
    rw [shift_behind]
    unfold Machine.shiftOperator?
    split
    · rename_i op ht
      rw [reduce_nil]
      exact if_pos ⟨rfl, hnext op (by rw [Token.connective?, ht]; rfl)⟩
    · rw [reduce_nil]
    · rfl
  rw [run_congr (h.trans (reduce_nil _ _ _).symm), run_of_stopped hstop, halt_behind, reduce_nil]

/-- Behind an operand a token stops the machine that ends a whole formula, or that is missing a closing
parenthesis. -/
theorem stopped_behind {t : Token} (h : Machine.shift? base ⟨stack, depth, .operator f⟩ t = none) :
    (∃ a depth', reduce t.connective? f stack depth = (a, [], depth') ∧
      ∀ op ∈ t.connective?, op.strength < base.strength) ∨
    ∃ a stack' depth', reduce none f stack depth = (a, .paren :: stack', depth') ∧ t.connective? = none ∧
      t.kind ≠ .rightParen := by
  rw [shift_behind] at h
  unfold Machine.shiftOperator? at h
  split at h
  · rename_i op ht
    have hop : t.connective? = some op := by rw [Token.connective?, ht]
    rcases hr : reduce (some op) f stack depth with ⟨a, stack', depth'⟩
    rw [hr] at h
    dsimp only at h
    split at h
    · rename_i hloose
      obtain ⟨rfl, hlt⟩ := hloose
      rw [hop]
      exact .inl ⟨a, depth', hr, fun c hc => by cases hc; exact hlt⟩
    · split at h <;> cases h
  · rename_i ht
    have hnone : t.connective? = none := by rw [Token.connective?, ht]
    rw [hnone]
    rcases reduce_none_cases f stack depth with ⟨a, depth', hr⟩ | ⟨a, stack', depth', hr⟩
    · exact .inl ⟨a, depth', hr, fun c hc => by cases hc⟩
    · rw [hr] at h
      cases h
  · rename_i hop hclose
    have hnone : t.connective? = none := by
      unfold Token.connective?
      split
      · exact absurd ‹_› (hop _)
      · rfl
    rw [hnone]
    rcases reduce_none_cases f stack depth with ⟨a, depth', hr⟩ | ⟨a, stack', depth', hr⟩
    · exact .inl ⟨a, depth', hr, fun c hc => by cases hc⟩
    · exact .inr ⟨a, stack', depth', hr, rfl, hclose⟩

/-- A connective of the level or a tighter one does not end a run. -/
theorem next_of_run : ∀ (ts : List Token) {m : Machine} {pos : Nat} {c : Cursor},
    run base m pos ts = (.ok f, c) → ∀ op ∈ c.peek.connective?, op.strength < base.strength := by
  intro ts
  induction ts with
  | nil =>
    intro m pos c h op hop
    rw [run_of_stopped (shift?_finish m rfl)] at h
    obtain ⟨-, rfl⟩ := Prod.mk.inj h
    cases hop
  | cons t ts ih =>
    intro m pos c h op hop
    rcases hs : m.shift? base t with _ | m'
    · rw [run_of_stopped (show m.shift? base (nextToken (t :: ts)) = none from hs)] at h
      obtain ⟨hok, rfl⟩ := Prod.mk.inj h
      obtain ⟨g, hdue⟩ := operand_of_halt hok
      obtain ⟨stack, depth, due⟩ := m
      cases hdue
      rcases stopped_behind hs with ⟨a, depth', -, hloose⟩ | ⟨a, stack', depth', -, hnone, -⟩
      · exact hloose op hop
      · cases hnone.symm.trans hop
    · rw [run_cons hs] at h
      exact ih h op hop

end Stops

/-! ## Runs on top of a stack -/

namespace Machine

/-- The machine with frames below its stack. -/
def onTop (m : Machine) (below : List Frame) : Machine :=
  ⟨m.stack ++ below, m.depth, m.due⟩

@[simp] theorem onTop_overflows (m : Machine) (below : List Frame) : (m.onTop below).overflows = m.overflows := rfl

end Machine

/-- Goes on behind the formula that was read, with what is below it on the stack. -/
def resume (base : Level) (below : List Frame) :
    Except FormulaError Formula × Cursor → Except FormulaError Formula × Cursor
  | (.ok f, c) => run base ⟨below, c.depth, .operator f⟩ c.pos c.ahead
  | (.error e, c) => (.error e, c)

section OnTop

variable {base l : Level} {below : List Frame} {m m' : Machine} {t : Token}

theorem shiftOperand?_onTop (hl : l ≠ .atom) (hbase : below = [] → base.strength ≤ l.strength)
    (h : m.shiftOperand? l t = some m') : (m.onTop below).shiftOperand? base t = some (m'.onTop below) := by
  unfold Machine.shiftOperand? at h ⊢
  split at h
  · cases h; rfl
  · cases h; rfl
  · cases h; rfl
  · cases h; rfl
  · rw [if_neg (fun hatom => hl hatom.1)] at h
    cases h
    refine if_neg ?_
    rintro ⟨rfl, hempty⟩
    have hle := hbase (List.append_eq_nil_iff.1 hempty).2
    revert hl hle
    cases l <;> decide
  · cases h

theorem shiftOperator?_onTop (hadm : Admits below l) (hbase : below = [] → base.strength ≤ l.strength)
    {f : Formula} (h : m.shiftOperator? l f t = some m') :
    (m.onTop below).shiftOperator? base f t = some (m'.onTop below) := by
  unfold Machine.shiftOperator? at h ⊢
  split at h
  · rename_i op ht
    rcases hr : reduce (some op) f m.stack m.depth with ⟨a, stack', depth'⟩
    rw [hr] at h
    dsimp only at h
    split at h
    · cases h
    · rename_i hkeeps
      -- a stack that is used up leaves the operand to what is below, which lets the connective go first
      have hreduce : reduce (some op) f (m.stack ++ below) m.depth = (a, stack' ++ below, depth') := by
        rw [reduce_append hr]
        split
        · rename_i hempty
          subst hempty
          have hop : l.strength ≤ op.strength := Nat.le_of_not_lt fun hlt => hkeeps ⟨rfl, hlt⟩
          refine reduce_of_admits ?_ a depth'
          unfold Admits at hadm ⊢
          rw [Connective.level_strength]
          omega
        · rfl
      have htakes : ¬ (stack' ++ below = [] ∧ op.strength < base.strength) := by
        rintro ⟨hempty, hlt⟩
        obtain ⟨rfl, rfl⟩ := List.append_eq_nil_iff.1 hempty
        have hle := hbase rfl
        exact hkeeps ⟨rfl, by omega⟩
      dsimp only [Machine.onTop]
      rw [hreduce]
      dsimp only
      rw [if_neg htakes]
      split at h
      · rename_i himplies
        cases h
        rw [if_pos himplies]
        rfl
      · rename_i himplies
        cases h
        rw [if_neg himplies]
        rfl
  · rcases hr : reduce none f m.stack m.depth with ⟨a, stack', depth'⟩
    rw [hr] at h
    split at h
    · rename_i hparen
      cases hparen
      cases h
      dsimp only [Machine.onTop]
      rw [reduce_append hr, if_neg (List.cons_ne_nil _ _)]
      rfl
    · cases h
  · cases h

/-- A token that joins a machine joins it on top of a stack on which its level may begin. -/
theorem shift?_onTop (hl : l ≠ .atom) (hadm : Admits below l) (hbase : below = [] → base.strength ≤ l.strength)
    (h : m.shift? l t = some m') : (m.onTop below).shift? base t = some (m'.onTop below) := by
  unfold Machine.shift? at h ⊢
  rw [Machine.onTop_overflows]
  split at h
  · cases h
  · rename_i hfits
    rw [if_neg hfits]
    obtain ⟨stack, depth, due⟩ := m
    rcases due with _ | _ | f
    · exact shiftOperand?_onTop hl hbase h
    · exact shiftOperand?_onTop hl hbase h
    · exact shiftOperator?_onTop hadm hbase h

/-- A token that stops a machine in want of an operand stops it on top of a stack. -/
theorem stopped_onTop (base : Level) (below : List Frame) (hl : l ≠ .atom) (hdue : ∀ f, m.due ≠ .operator f) (h : m.shift? l t = none) :
    (m.onTop below).shift? base t = none ∧ (m.onTop below).halt t = m.halt t := by
  unfold Machine.shift? Machine.halt at *
  rw [Machine.onTop_overflows]
  split
  · exact ⟨rfl, rfl⟩
  · rename_i hfits
    rw [if_neg hfits] at h
    have hoperand : m.shiftOperand? l t = none → (m.onTop below).shiftOperand? base t = none := by
      unfold Machine.shiftOperand?
      intro h
      split at h
      · cases h
      · cases h
      · cases h
      · cases h
      · rw [if_neg (fun hatom => hl hatom.1)] at h
        cases h
      · rfl
    obtain ⟨stack, depth, due⟩ := m
    rcases due with _ | _ | f
    · exact ⟨hoperand h, rfl⟩
    · exact ⟨hoperand h, rfl⟩
    · exact absurd rfl (hdue f)

/-- Where a run stops, it stops on top of a stack as well or, with a formula, goes on with what is below. -/
theorem run_onTop_of_stopped (hl : l ≠ .atom) {ts : List Token} (h : m.shift? l (nextToken ts) = none) (pos : Nat) :
    run base (m.onTop below) pos ts = resume base below (run l m pos ts) := by
  obtain ⟨stack, depth, due⟩ := m
  by_cases hdue : ∃ f, due = .operator f
  · obtain ⟨f, rfl⟩ := hdue
    rcases stopped_behind h with ⟨a, depth', hr, hloose⟩ | ⟨a, stack', depth', hr, hnone, hclose⟩
    · rw [run_stops hr hloose]
      exact run_congr ((reduce_append hr below).trans (if_pos rfl)) pos
    · have hhalt : ∀ s, s = stack ∨ s = stack ++ below →
          Machine.halt ⟨s, depth, .operator f⟩ (nextToken ts) =
            (.error (.unexpectedToken (nextToken ts) closingExpected), depth') := by
        rintro s (rfl | rfl)
        · rw [halt_behind, hr]
        · rw [halt_behind, reduce_append hr, if_neg (List.cons_ne_nil _ _)]
          rfl
      have hstop : Machine.shift? base ⟨stack ++ below, depth, .operator f⟩ (nextToken ts) = none := by
        rw [shift_behind]
        unfold Machine.shiftOperator?
        split
        · rename_i op ht
          rw [Token.connective?, ht] at hnone
          cases hnone
        · exact absurd ‹_› hclose
        · rfl
      rw [run_of_stopped h, hhalt stack (.inl rfl), Machine.onTop, run_of_stopped hstop, hhalt _ (.inr rfl)]
      rfl
  · obtain ⟨hstop, hhalt⟩ := stopped_onTop base below hl (fun f hf => hdue ⟨f, hf⟩) h
    rw [run_of_stopped h, run_of_stopped hstop, hhalt]
    unfold Machine.halt
    split
    · rfl
    · rcases due with _ | _ | f
      · rfl
      · rfl
      · exact absurd ⟨f, rfl⟩ hdue

/-- A machine on top of a stack on which its level may begin reads what it reads from an empty stack, and then
the run goes on with what is below. -/
theorem run_onTop (hl : l ≠ .atom) (hadm : Admits below l) (hbase : below = [] → base.strength ≤ l.strength) :
    ∀ (ts : List Token) (m : Machine) (pos : Nat),
      run base (m.onTop below) pos ts = resume base below (run l m pos ts) := by
  intro ts
  induction ts with
  | nil =>
    intro m pos
    exact run_onTop_of_stopped hl (shift?_finish m rfl) pos
  | cons t ts ih =>
    intro m pos
    rcases h : m.shift? l t with _ | m'
    · exact run_onTop_of_stopped hl (show m.shift? l (nextToken (t :: ts)) = none from h) pos
    · rw [run_cons h, run_cons (shift?_onTop hl hadm hbase h), ih]

/-- What is behind a stack is read from an empty one first. -/
theorem run_on (hl : l ≠ .atom) (hadm : Admits below l) (hbase : below = [] → base.strength ≤ l.strength)
    (depth : Int) (due : Due) (pos : Nat) (ts : List Token) :
    run base ⟨below, depth, due⟩ pos ts = resume base below (run l ⟨[], depth, due⟩ pos ts) :=
  run_onTop hl hadm hbase ts ⟨[], depth, due⟩ pos

end OnTop

end Parser

end Deduction
