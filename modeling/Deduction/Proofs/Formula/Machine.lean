/-
The machine of the parser against the grammar, in both directions. A derived row of tokens, read from
any stack on which it may begin, leaves the machine behind a formula that reduces to the tree of the
row (`run_derives`). Conversely the tokens that a machine has read are those that its stack stands
for, and behind a formula a row that an atom derives (`Reads`); each token keeps this, so a run that
ends in a formula has read a row with that tree (`derives_of_run`).
-/
import Deduction.Proofs.Formula.Grammar

namespace Deduction

/-- Whether a row of the level ends before the next connective, as every row does when none is next. -/
def Level.endsBefore (l : Level) : Option Connective → Bool
  | none => true
  | some c => c.strength < l.strength || (c.strength = l.strength && !c.groupsRight)

namespace Parser

/-! ## What a stack asks for -/

def Frame.level : Frame → Level
  | paren => .iff
  | neg => .not
  | left op _ => op.rightLevel

/-- The level of the row that may begin behind the stack. -/
def stackLevel : List Frame → Level
  | [] => .iff
  | frame :: _ => frame.level

/-- A row of the level may begin behind the stack. -/
def Admits (stack : List Frame) (l : Level) : Prop :=
  (stackLevel stack).strength ≤ l.strength

/-- A connective takes its right operand first when its row ends before the next connective. -/
theorem takesFirst_eq (op : Connective) (next : Option Connective) :
    takesFirst op next = op.level.endsBefore next := by
  rcases next with _ | c
  · rfl
  · cases op <;> cases c <;> rfl

theorem endsBefore_mono {k l : Level} (h : k.strength < l.strength) {next : Option Connective}
    (hk : k.endsBefore next = true) : l.endsBefore next = true := by
  rcases next with _ | c
  · rfl
  · simp only [Level.endsBefore, Bool.or_eq_true, decide_eq_true_eq, Bool.and_eq_true] at hk ⊢
    exact .inl (by omega)

theorem endsBefore_right {op : Connective} {next : Option Connective} (h : op.level.endsBefore next = true) :
    op.rightLevel.endsBefore next = true := by
  rcases next with _ | c
  · rfl
  · revert h; cases op <;> cases c <;> decide

theorem endsBefore_left (op : Connective) : op.leftLevel.endsBefore (some op) = true := by
  cases op <;> rfl

theorem strength_lt_not (op : Connective) : op.strength < Level.not.strength := by cases op <;> decide

/-- A connective lets another one go first when a row of the other may begin behind it. -/
theorem takesFirst_eq_false {op next : Connective} (h : op.rightLevel.strength ≤ next.strength) :
    takesFirst op (some next) = false := by
  revert h; cases op <;> cases next <;> decide

/-- What a connective lets go first may begin behind it. -/
theorem rightLevel_le_of_takesFirst {op next : Connective} (h : takesFirst op (some next) = false) :
    op.rightLevel.strength ≤ next.strength := by
  revert h; cases op <;> cases next <;> decide

/-- What a connective goes before can have its row for a left operand. -/
theorem leftLevel_le_of_takesFirst {op next : Connective} (h : takesFirst op (some next) = true) :
    next.leftLevel.strength ≤ op.strength := by
  revert h; cases op <;> cases next <;> decide

/-! ## Reductions -/

@[simp] theorem reduce_nil (next : Option Connective) (f : Formula) (depth : Int) :
    reduce next f [] depth = (f, [], depth) := by
  rw [reduce]; all_goals simp

@[simp] theorem reduce_paren (next : Option Connective) (f : Formula) (stack : List Frame) (depth : Int) :
    reduce next f (.paren :: stack) depth = (f, .paren :: stack, depth) := by
  rw [reduce]; all_goals simp

@[simp] theorem reduce_neg (next : Option Connective) (f : Formula) (stack : List Frame) (depth : Int) :
    reduce next f (.neg :: stack) depth = reduce next (.neg f) stack (depth - 1) := by
  rw [reduce]

theorem reduce_left_of_takes {op : Connective} {next : Option Connective} (h : takesFirst op next = true)
    (a f : Formula) (stack : List Frame) (depth : Int) :
    reduce next f (.left op a :: stack) depth = reduce next (.binary op a f) stack (depth - op.opened) := by
  rw [reduce, if_pos h]
  cases op <;> simp [Connective.opened]

theorem reduce_left_of_not_takes {op : Connective} {next : Option Connective} (h : takesFirst op next = false)
    (a f : Formula) (stack : List Frame) (depth : Int) :
    reduce next f (.left op a :: stack) depth = (f, .left op a :: stack, depth) := by
  rw [reduce, if_neg (by simp [h])]

/-- A stack on which a row of the connective may begin leaves it the left operand. -/
theorem reduce_of_admits {op : Connective} {stack : List Frame} (h : Admits stack op.level) (f : Formula)
    (depth : Int) : reduce (some op) f stack depth = (f, stack, depth) := by
  unfold Admits at h
  rw [Connective.level_strength] at h
  rcases stack with _ | ⟨_ | _ | ⟨op', a⟩, stack⟩
  · simp
  · simp
  · have := strength_lt_not op
    simp only [stackLevel, Frame.level] at h
    omega
  · exact reduce_left_of_not_takes (takesFirst_eq_false h) a f stack depth

/-! ## Steps -/

/-- A machine that waits for an operand and has not opened a level too many. -/
structure Ready (m : Machine) : Prop where
  waits : m.due = .operand ∨ m.due = .opened
  fits : m.depth ≤ nestingLimit

theorem Ready.shift {m : Machine} (h : Ready m) {base : Level} (t : Token) :
    m.shift? base t = m.shiftOperand? base t := by
  have hd := h.fits
  have ho : m.overflows = false := by
    simp only [Machine.overflows, Bool.and_eq_false_iff, decide_eq_false_iff_not]
    right; omega
  unfold Machine.shift?
  rw [ho]
  rcases h.waits with hw | hw <;> rw [hw] <;> rfl

theorem shift_behind {base : Level} (stack : List Frame) (depth : Int) (f : Formula) (t : Token) :
    Machine.shift? base ⟨stack, depth, .operator f⟩ t =
      Machine.shiftOperator? base ⟨stack, depth, .operator f⟩ f t := by
  simp [Machine.shift?, Machine.overflows]

/-- The machine takes a connective that its level has, and on a stack every connective. -/
theorem shift_operator {base : Level} {t : Token} {op : Connective} (ht : t.kind = .operator op) {f a : Formula}
    {stack stack' : List Frame} {depth depth' : Int}
    (hr : reduce (some op) f stack depth = (a, stack', depth'))
    (hbase : stack' = [] → base.strength ≤ op.strength) :
    Machine.shift? base ⟨stack, depth, .operator f⟩ t =
      some ⟨.left op a :: stack', depth' + op.opened, if op = .implies then .opened else .operand⟩ := by
  have hb : ¬ (stack' = [] ∧ op.strength < base.strength) := fun h => Nat.not_lt.2 (hbase h.1) h.2
  rw [shift_behind]
  simp only [Machine.shiftOperator?, ht, hr]
  rw [if_neg hb]
  cases op <;> simp [Connective.opened]

theorem shift_connective {t : Token} {op : Connective} (ht : t.kind = .operator op) {f a : Formula}
    {stack stack' : List Frame} {depth depth' : Int}
    (hr : reduce (some op) f stack depth = (a, stack', depth')) :
    Machine.shift? .iff ⟨stack, depth, .operator f⟩ t =
      some ⟨.left op a :: stack', depth' + op.opened, if op = .implies then .opened else .operand⟩ :=
  shift_operator ht hr fun _ => by cases op <;> decide

theorem shift_closing {base : Level} {t : Token} (ht : t.kind = .rightParen) {f a : Formula}
    {stack stack' : List Frame} {depth depth' : Int}
    (hr : reduce none f stack depth = (a, .paren :: stack', depth')) :
    Machine.shift? base ⟨stack, depth, .operator f⟩ t = some ⟨stack', depth' - 1, .operator a⟩ := by
  rw [shift_behind]
  simp only [Machine.shiftOperator?, ht, hr]

theorem run_cons {base : Level} {m m' : Machine} {t : Token} (h : m.shift? base t = some m') (pos : Nat)
    (ts : List Token) : run base m pos (t :: ts) = run base m' (pos + 1) ts := by
  rw [run, h]

/-! ## Derived rows are read -/

theorem Admits.tighter {stack : List Frame} {k l : Level} (h : Admits stack k) (hk : k.strength < l.strength) :
    Admits stack l := by
  unfold Admits at *; omega

theorem admits_not (stack : List Frame) : Admits stack .not := by
  rcases stack with _ | ⟨frame, stack⟩
  · exact Level.iff_le _
  · show frame.level.strength ≤ Level.not.strength
    rcases frame with _ | _ | ⟨op, a⟩
    · exact Level.iff_le _
    · exact Nat.le_refl _
    · exact op.rightLevel_le_not

/-- A row that a level derives, read from a stack on which it may begin, is behind the machine as its
tree is: before whatever does not go on with the row, both reduce to the same. -/
theorem run_derives {l : Level} {w : List Token} {f : Formula} {m : Nat} (h : Derives l w f m) :
    ∀ (k : Machine) (pos : Nat) (rest : List Token), Ready k → Admits k.stack l → k.depth + m ≤ nestingLimit →
      ∃ g stack depth, run .iff k pos (w ++ rest) = run .iff ⟨stack, depth, .operator g⟩ (pos + w.length) rest ∧
        ∀ next, l.endsBefore next = true → reduce next g stack depth = reduce next f k.stack k.depth := by
  induction h with
  | @name t ht =>
    intro k pos rest hk _ _
    refine ⟨.var t.text, k.stack, k.depth, ?_, fun _ _ => rfl⟩
    exact run_cons (by rw [hk.shift, Machine.shiftOperand?, ht]; rfl) pos rest
  | @top t ht =>
    intro k pos rest hk _ _
    refine ⟨.top, k.stack, k.depth, ?_, fun _ _ => rfl⟩
    exact run_cons (by rw [hk.shift, Machine.shiftOperand?, ht]; rfl) pos rest
  | @bottom t ht =>
    intro k pos rest hk _ _
    refine ⟨.bottom, k.stack, k.depth, ?_, fun _ _ => rfl⟩
    exact run_cons (by rw [hk.shift, Machine.shiftOperand?, ht]; rfl) pos rest
  | @group lp rp w f m hl hr _ ih =>
    intro k pos rest hk _ hm
    have hopen : k.shift? .iff lp = some (k.opening .paren) := by
      rw [hk.shift, Machine.shiftOperand?, hl]
    obtain ⟨g, stack, depth, hrun, hred⟩ := ih (k.opening .paren) (pos + 1) (rp :: rest)
      ⟨.inr rfl, by simp only [Machine.opening]; omega⟩ (Level.iff_le _) (by simp only [Machine.opening]; omega)
    -- nothing goes on with a row in front of its closing parenthesis
    have hclose := hred none rfl
    rw [Machine.opening, reduce_paren] at hclose
    refine ⟨f, k.stack, k.depth, ?_, fun _ _ => rfl⟩
    rw [List.cons_append, List.append_assoc, List.singleton_append, run_cons hopen, hrun,
      run_cons (shift_closing hr hclose)]
    simp only [Int.add_sub_cancel, List.length_cons, List.length_append, List.length_nil]
    congr 1; omega
  | @neg t w f m ht _ ih =>
    intro k pos rest hk _ hm
    have hopen : k.shift? .iff t = some (k.opening .neg) := by
      rw [hk.shift, Machine.shiftOperand?, ht]; rfl
    obtain ⟨g, stack, depth, hrun, hred⟩ := ih (k.opening .neg) (pos + 1) rest
      ⟨.inr rfl, by simp only [Machine.opening]; omega⟩ (Nat.le_refl _) (by simp only [Machine.opening]; omega)
    refine ⟨g, stack, depth, ?_, fun next hn => ?_⟩
    · rw [List.cons_append, run_cons hopen, hrun]
      congr 1; simp only [List.length_cons]; omega
    · rw [hred next hn, Machine.opening, reduce_neg, Int.add_sub_cancel]
  | @binary t op u v a b m n ht _ _ ihu ihv =>
    intro k pos rest hk hadm hm
    have hleft : Admits k.stack op.leftLevel := by
      have := op.level_le_leftLevel
      unfold Admits at *; rw [Connective.level_strength] at hadm; omega
    obtain ⟨g, stack, depth, hrun, hred⟩ := ihu k pos (t :: (v ++ rest)) hk hleft (by omega)
    -- the left row ends at the connective, which waits on the stack for the row behind it
    have hop := hred (some op) (endsBefore_left op)
    rw [reduce_of_admits hadm] at hop
    obtain ⟨g', stack', depth', hrun', hred'⟩ := ihv
      ⟨.left op a :: k.stack, k.depth + op.opened, if op = .implies then .opened else .operand⟩
      (pos + u.length + 1) rest ⟨by split <;> simp, by simp only; omega⟩ (Nat.le_refl _) (by simp only; omega)
    refine ⟨g', stack', depth', ?_, fun next hn => ?_⟩
    · rw [List.append_assoc, List.cons_append, hrun, run_cons (shift_connective ht hop), hrun']
      congr 1; simp only [List.length_append, List.length_cons]; omega
    · rw [hred' next (endsBefore_right hn), reduce_left_of_takes (by rw [takesFirst_eq]; exact hn),
        Int.add_sub_cancel]
  | tighter hkl _ ih =>
    intro k pos rest hk hadm hm
    obtain ⟨g, stack, depth, hrun, hred⟩ := ih k pos rest hk (hadm.tighter hkl) hm
    exact ⟨g, stack, depth, hrun, fun next hn => hred next (endsBefore_mono hkl hn)⟩

/-! ## What is read is derived -/

/-- The tokens `w` are those that the stack stands for, and `n` levels are open behind them. -/
inductive Stacked : List Token → List Frame → Nat → Prop
  | bottom : Stacked [] [] 0
  | paren {w : List Token} {stack : List Frame} {n : Nat} {t : Token} : Stacked w stack n →
      t.kind = .leftParen → Stacked (w ++ [t]) (.paren :: stack) (n + 1)
  | neg {w : List Token} {stack : List Frame} {n : Nat} {t : Token} : Stacked w stack n →
      t.kind = .negation → Stacked (w ++ [t]) (.neg :: stack) (n + 1)
  | left {w u : List Token} {stack : List Frame} {n m : Nat} {t : Token} {op : Connective} {a : Formula} :
      Stacked w stack n → Derives op.leftLevel u a m → n + m ≤ nestingLimit → t.kind = .operator op →
      Admits stack op.level → Stacked (w ++ u ++ [t]) (.left op a :: stack) (n + op.opened)

/-- The machine has read the tokens: its stack stands for them or, behind a formula, for those in
front of the last atom. -/
inductive Reads : List Token → Machine → Prop
  | operand {w : List Token} {stack : List Frame} {n : Nat} : Stacked w stack n → n ≤ nestingLimit →
      Reads w ⟨stack, n, .operand⟩
  | opened {w : List Token} {stack : List Frame} {n : Nat} : Stacked w stack n → Reads w ⟨stack, n, .opened⟩
  | behind {w v : List Token} {stack : List Frame} {n m : Nat} {f : Formula} : Stacked w stack n →
      Derives .atom v f m → n + m ≤ nestingLimit → Reads (w ++ v) ⟨stack, n, .operator f⟩

/-- Where a reduction stops: the frame on top takes nothing before the next connective. -/
def Settled (next : Option Connective) (stack : List Frame) (l : Level) : Prop :=
  match next with
  | none => ∀ frame ∈ stack.head?, frame = .paren
  | some c => Admits stack c.level ∧ c.leftLevel.strength ≤ l.strength

/-- A reduction joins the derived row at hand with what is on the stack to a longer one. -/
theorem reduce_stacked {w : List Token} {stack : List Frame} {n : Nat} (h : Stacked w stack n)
    (next : Option Connective) :
    ∀ {l : Level} {v : List Token} {f : Formula} {m : Nat}, Derives l v f m → n + m ≤ nestingLimit →
      Admits stack l → (∀ c ∈ next, c.leftLevel.strength ≤ l.strength) →
      ∃ (w' v' : List Token) (stack' : List Frame) (n' m' : Nat) (l' : Level) (f' : Formula),
        reduce next f stack n = (f', stack', (n' : Int)) ∧ w ++ v = w' ++ v' ∧ Stacked w' stack' n' ∧
        Derives l' v' f' m' ∧ n' + m' ≤ nestingLimit ∧ Settled next stack' l' := by
  induction h with
  | bottom =>
    intro l v f m hv hm _ hl
    refine ⟨[], v, [], 0, m, l, f, by simp, rfl, .bottom, hv, hm, ?_⟩
    rcases next with _ | c
    · intro frame hf; cases hf
    · exact ⟨Level.iff_le _, hl c rfl⟩
  | @paren w stack n t hs ht _ =>
    intro l v f m hv hm _ hl
    refine ⟨w ++ [t], v, .paren :: stack, n + 1, m, l, f, by simp, rfl, .paren hs ht, hv, hm, ?_⟩
    rcases next with _ | c
    · intro frame hf; cases hf; rfl
    · exact ⟨Level.iff_le _, hl c rfl⟩
  | @neg w stack n t _ ht ih =>
    -- a negation binds tighter than every connective, so the reduction goes on with the stack below
    intro l v f m hv hm hadm _
    have hneg : Derives .not (t :: v) (.neg f) (m + 1) := .neg ht (hv.loosen hadm)
    obtain ⟨w', v', stack', n', m', l', f', hr, hw, hrest⟩ := ih hneg (by omega) (admits_not stack)
      (fun c _ => by cases c <;> decide)
    refine ⟨w', v', stack', n', m', l', f', ?_, ?_, hrest⟩
    · rw [reduce_neg, ← hr]; congr 1; simp
    · rw [← hw]; simp
  | @left w u stack n k t op a hs hu hk ht hadm' ih =>
    intro l v f m hv hm hadm hl
    cases htakes : takesFirst op next with
    -- the frame takes its right operand, or the reduction stops here
    | true =>
      have hbin : Derives op.level (u ++ t :: v) (.binary op a f) (max k (m + op.opened)) :=
        .binary ht hu (hv.loosen hadm)
      obtain ⟨w', v', stack', n', m', l', f', hr, hw, hrest⟩ := ih hbin (by omega) hadm' (by
        intro c hc
        rw [Connective.level_strength]
        cases hc
        exact leftLevel_le_of_takesFirst htakes)
      refine ⟨w', v', stack', n', m', l', f', ?_, ?_, hrest⟩
      · rw [reduce_left_of_takes htakes, ← hr]; congr 1; simp
      · rw [← hw]; simp
    | false =>
      refine ⟨w ++ u ++ [t], v, .left op a :: stack, n + op.opened, m, l, f,
        reduce_left_of_not_takes htakes _ _ _ _, rfl, .left hs hu hk ht hadm', hv, hm, ?_⟩
      rcases next with _ | c
      · simp [takesFirst] at htakes
      · refine ⟨?_, hl c rfl⟩
        unfold Admits
        rw [Connective.level_strength]
        exact rightLevel_le_of_takesFirst htakes

/-- What a token adds to what is read when it is an operand or opens a level. -/
theorem Reads.operandToken {w : List Token} {stack : List Frame} {n : Nat} {due : Due} (hs : Stacked w stack n)
    (hn : n ≤ nestingLimit) {t : Token} {k : Machine}
    (h : Machine.shiftOperand? .iff ⟨stack, n, due⟩ t = some k) : Reads (w ++ [t]) k := by
  unfold Machine.shiftOperand? at h
  split at h
  · rename_i ht; cases h; exact .behind hs (.name ht) hn
  · rename_i ht; cases h; exact .behind hs (.top ht) hn
  · rename_i ht; cases h; exact .behind hs (.bottom ht) hn
  · rename_i ht; cases h; exact .opened (n := n + 1) (.paren hs ht)
  · rename_i ht
    simp only [reduceCtorEq, false_and, if_false, Option.some.injEq] at h
    subst h
    exact .opened (n := n + 1) (.neg hs ht)
  · cases h

theorem Reads.operatorToken {w v : List Token} {stack : List Frame} {n m : Nat} {f : Formula}
    (hs : Stacked w stack n) (hv : Derives .atom v f m) (hm : n + m ≤ nestingLimit) {t : Token} {k : Machine}
    (h : Machine.shiftOperator? .iff ⟨stack, n, .operator f⟩ f t = some k) : Reads (w ++ v ++ [t]) k := by
  have hred := fun next => reduce_stacked hs next hv hm ((admits_not stack).tighter (by decide))
    (fun c _ => by cases c <;> decide)
  unfold Machine.shiftOperator? at h
  split at h
  · rename_i op ht
    -- what the reduction leaves is the left operand of the connective
    obtain ⟨w', v', stack', n', m', l', a, hr, hw, hs', hv', hm', hadm, hl⟩ := hred (some op)
    rw [hr] at h
    dsimp only at h
    rw [hw]
    split at h
    · cases h
    · have hleft := Stacked.left hs' (hv'.loosen hl) hm' ht hadm
      split at h
      · rename_i hop; cases h; subst hop; exact .opened (n := n' + 1) hleft
      · rename_i hop
        cases h
        rw [Connective.opened_eq_zero hop] at hleft
        exact .operand hleft (by omega)
  · rename_i ht
    obtain ⟨w', v', stack', n', m', l', a, hr, hw, hs', hv', hm', _⟩ := hred none
    rw [hr] at h
    rw [hw]
    split at h
    · rename_i heq
      cases heq
      cases h
      -- only a parenthesis may be below what it closes
      cases hs' with
      | paren hs'' hl =>
        rename_i w'' n'' lp
        have := Derives.group hl ht (hv'.loosen (Level.iff_le _))
        simpa using Reads.behind (n := n'') hs'' this (by omega)
    · cases h
  · cases h

/-- Each token that the machine takes is added to what it has read. -/
theorem Reads.shift {w : List Token} {k k' : Machine} (h : Reads w k) {t : Token}
    (hk : k.shift? .iff t = some k') : Reads (w ++ [t]) k' := by
  cases h with
  | operand hs hn =>
    simp only [Machine.shift?, Machine.overflows, reduceCtorEq, decide_false, Bool.false_and] at hk
    exact .operandToken hs hn hk
  | @opened w stack n hs =>
    unfold Machine.shift? at hk
    split at hk
    · cases hk
    · rename_i ho
      simp only [Machine.overflows, decide_true, Bool.true_and, decide_eq_true_eq, Int.not_lt] at ho
      exact .operandToken hs (by omega) hk
  | behind hs hv hm => exact .operatorToken hs hv hm (by rw [← shift_behind]; exact hk)

theorem Reads.halt {w : List Token} {k : Machine} (h : Reads w k) {t : Token} {f : Formula}
    (hk : (k.halt t).1 = .ok f) : ∃ m ≤ nestingLimit, Derives .iff w f m := by
  unfold Machine.halt at hk
  split at hk
  · cases hk
  · cases h with
    | operand => cases hk
    | opened => cases hk
    | behind hs hv hm =>
      obtain ⟨w', v', stack', n', m', l', a, hr, hw, hs', hv', hm', _⟩ := reduce_stacked hs none hv hm
        ((admits_not _).tighter (by decide)) (fun c hc => by cases hc)
      dsimp only at hk
      rw [hr] at hk
      split at hk
      · rename_i heq
        cases heq
        cases hk
        cases hs'
        rw [hw]
        exact ⟨m', by omega, hv'.loosen (Level.iff_le _)⟩
      · cases hk

/-- A run that ends in a formula has read, with what was read before, a derived row. -/
theorem derives_of_run : ∀ (ts : List Token) {w : List Token} {k : Machine} {pos : Nat} {f : Formula}
    {c : Cursor}, Reads w k → run .iff k pos ts = (.ok f, c) →
      ∃ v, ts = v ++ c.ahead ∧ ∃ m ≤ nestingLimit, Derives .iff (w ++ v) f m
  | [], w, k, pos, f, c, h, hr => by
    rw [run] at hr
    dsimp only at hr
    obtain ⟨hf, hc⟩ := Prod.mk.inj hr
    obtain ⟨m, hm, hd⟩ := h.halt hf
    exact ⟨[], by rw [← hc]; rfl, m, hm, by simpa using hd⟩
  | t :: ts, w, k, pos, f, c, h, hr => by
    rw [run] at hr
    split at hr
    · rename_i k' hk
      obtain ⟨v, hv, m, hm, hd⟩ := derives_of_run ts (h.shift hk) hr
      exact ⟨t :: v, by rw [hv]; rfl, m, hm, by simpa using hd⟩
    · dsimp only at hr
      obtain ⟨hf, hc⟩ := Prod.mk.inj hr
      obtain ⟨m, hm, hd⟩ := h.halt hf
      exact ⟨[], by rw [← hc]; rfl, m, hm, by simpa using hd⟩

end Parser

end Deduction
