/-
The grammar read by recursive descent: each level is a routine that calls the next tighter one, the loop of a
connective goes on as long as the connective comes next, and a routine that opens a level of nesting closes it
when it has read what is in it. The machine does what the routines do: every routine ends, with the answer and
at the place that the machine gives (`computed`), and it has no other outcome (`descends_row_iff`).
-/
import Deduction.Proofs.Formula.Stack

namespace Deduction

namespace Level

/-- The connective whose chains a level reads. -/
def connective? : Level → Option Connective
  | iff => some .iff
  | implies => some .implies
  | or => some .or
  | and => some .and
  | not => none
  | atom => none

end Level

namespace Connective

/-- The level at which a chain of the connective reads its operands. -/
def operandLevel : Connective → Level
  | iff => .implies
  | implies => .or
  | or => .and
  | and => .not

theorem operandLevel_eq {op : Connective} (h : op ≠ .implies) : op.operandLevel = op.rightLevel := by
  revert h; cases op <;> decide

/-- A connective that stops an operand and is not the same goes to a looser level. -/
theorem lt_level_of_lt_operandLevel {op next : Connective} (h : next.strength < op.operandLevel.strength)
    (hne : next ≠ op) : next.strength < op.level.strength := by
  revert h hne; cases op <;> cases next <;> decide

end Connective

namespace Parser

/-- What a routine gives: a formula or an error, and where it leaves the cursor. -/
abbrev Outcome := Except FormulaError Formula × Cursor

/-- A routine of the descent. -/
inductive Routine
  /-- Reads a formula that the end must follow. -/
  | whole
  /-- Reads a row of the level. -/
  | row (l : Level)
  /-- Goes on with a chain behind what its operands have given so far. -/
  | more (op : Connective) (left : Except FormulaError Formula)
  /-- Opens a level of nesting and reads a row in it. -/
  | within (l : Level)

/-- Asks for the end behind the formula that was read. -/
def ended : Outcome → Outcome
  | (.ok f, c) =>
    if c.peek.kind = .finish then (.ok f, c) else (.error (.unexpectedToken c.peek endExpected), c)
  | (.error e, c) => (.error e, c)

/-- Closes the level of nesting in which a formula was read. An error leaves it open. -/
def leaving (g : Formula → Formula) : Outcome → Outcome
  | (.ok f, c) => (.ok (g f), c.leave)
  | (.error e, c) => (.error e, c)

/-- Closes the level of nesting in which a formula was read, at the parenthesis that must be next. -/
def closing : Outcome → Outcome
  | (.ok f, c) =>
    if c.peek.kind = .rightParen then (.ok f, c.advance.leave)
    else (.error (.unexpectedToken c.peek closingExpected), c)
  | (.error e, c) => (.error e, c)

/-- The kinds of tokens that an atom begins with. -/
def beginsAtom : Token.Kind → Bool
  | .identifier => true
  | .constant _ => true
  | .leftParen => true
  | _ => false

/-- `Descends r c out`: called at the cursor `c`, the routine `r` ends with the outcome `out`. -/
inductive Descends : Routine → Cursor → Outcome → Prop
  | whole {c : Cursor} {inner : Outcome} : Descends (.row .iff) c inner → Descends .whole c (ended inner)
  | chain {l : Level} {op : Connective} {c : Cursor} {first out : Outcome} : l.connective? = some op →
      Descends (.row op.operandLevel) c first → Descends (.more op first.1) first.2 out →
      Descends (.row l) c out
  | failed {op : Connective} {e : FormulaError} {c : Cursor} : Descends (.more op (.error e)) c (.error e, c)
  | done {op : Connective} {f : Formula} {c : Cursor} : c.peek.kind ≠ .operator op →
      Descends (.more op (.ok f)) c (.ok f, c)
  | again {op : Connective} {f : Formula} {c : Cursor} {next out : Outcome} : op ≠ .implies →
      c.peek.kind = .operator op → Descends (.row op.operandLevel) c.advance next →
      Descends (.more op (next.1.map (.binary op f))) next.2 out → Descends (.more op (.ok f)) c out
  | conditional {f : Formula} {c : Cursor} {next : Outcome} : c.peek.kind = .operator .implies →
      Descends (.within .implies) c.advance next →
      Descends (.more .implies (.ok f)) c (leaving (.binary .implies f) next)
  | within {l : Level} {c c' : Cursor} {out : Outcome} : c.enter = (.ok (), c') → Descends (.row l) c' out →
      Descends (.within l) c out
  | tooDeep {l : Level} {e : FormulaError} {c c' : Cursor} : c.enter = (.error e, c') →
      Descends (.within l) c (.error e, c')
  | neg {c : Cursor} {inner : Outcome} : c.peek.kind = .negation → Descends (.within .not) c.advance inner →
      Descends (.row .not) c (leaving .neg inner)
  | atom {c : Cursor} {out : Outcome} : c.peek.kind ≠ .negation → Descends (.row .atom) c out →
      Descends (.row .not) c out
  | name {c : Cursor} : c.peek.kind = .identifier → Descends (.row .atom) c (.ok (.var c.peek.text), c.advance)
  | top {c : Cursor} : c.peek.kind = .constant true → Descends (.row .atom) c (.ok .top, c.advance)
  | bottom {c : Cursor} : c.peek.kind = .constant false → Descends (.row .atom) c (.ok .bottom, c.advance)
  | group {c : Cursor} {inner : Outcome} : c.peek.kind = .leftParen → Descends (.within .iff) c.advance inner →
      Descends (.row .atom) c (closing inner)
  | missing {c : Cursor} : beginsAtom c.peek.kind = false →
      Descends (.row .atom) c (.error (.unexpectedToken c.peek operandExpected), c)

/-- `Calls r c r' c'`: called at the cursor `c`, the routine `r` calls the routine `r'` at `c'`. -/
inductive Calls : Routine → Cursor → Routine → Cursor → Prop
  | whole {c : Cursor} : Calls .whole c (.row .iff) c
  | operand {l : Level} {op : Connective} {c : Cursor} : l.connective? = some op →
      Calls (.row l) c (.row op.operandLevel) c
  | more {l : Level} {op : Connective} {c : Cursor} {first : Outcome} : l.connective? = some op →
      Descends (.row op.operandLevel) c first → Calls (.row l) c (.more op first.1) first.2
  | next {op : Connective} {f : Formula} {c : Cursor} : op ≠ .implies → c.peek.kind = .operator op →
      Calls (.more op (.ok f)) c (.row op.operandLevel) c.advance
  | again {op : Connective} {f : Formula} {c : Cursor} {next : Outcome} : op ≠ .implies →
      c.peek.kind = .operator op → Descends (.row op.operandLevel) c.advance next →
      Calls (.more op (.ok f)) c (.more op (next.1.map (.binary op f))) next.2
  | conditional {f : Formula} {c : Cursor} : c.peek.kind = .operator .implies →
      Calls (.more .implies (.ok f)) c (.within .implies) c.advance
  | within {l : Level} {c c' : Cursor} : c.enter = (.ok (), c') → Calls (.within l) c (.row l) c'
  | neg {c : Cursor} : c.peek.kind = .negation → Calls (.row .not) c (.within .not) c.advance
  | atom {c : Cursor} : c.peek.kind ≠ .negation → Calls (.row .not) c (.row .atom) c
  | group {c : Cursor} : c.peek.kind = .leftParen → Calls (.row .atom) c (.within .iff) c.advance

/-- `Open r c r' c'`: while the routine `r` runs that was called at `c`, there is an open call of `r'` at `c'`. -/
inductive Open (r : Routine) (c : Cursor) : Routine → Cursor → Prop
  | here : Open r c r c
  | call {r' r'' : Routine} {c' c'' : Cursor} : Open r c r' c' → Calls r' c' r'' c'' → Open r c r'' c''

/-! ## One outcome -/

/-- What an atom is goes by the kind of its first token. -/
theorem Descends.atom_cases {c : Cursor} {out : Outcome} (h : Descends (.row .atom) c out) :
    match c.peek.kind with
    | .identifier => out = (.ok (.var c.peek.text), c.advance)
    | .constant true => out = (.ok .top, c.advance)
    | .constant false => out = (.ok .bottom, c.advance)
    | .leftParen => ∃ inner, Descends (.within .iff) c.advance inner ∧ out = closing inner
    | _ => out = (.error (.unexpectedToken c.peek operandExpected), c) := by
  cases h with
  | chain hl => cases hl
  | name hc => rw [hc]
  | top hc => rw [hc]
  | bottom hc => rw [hc]
  | group hc h => rw [hc]; exact ⟨_, h, rfl⟩
  | missing hc =>
    split
    · rename_i hk; rw [hk] at hc; cases hc
    · rename_i hk; rw [hk] at hc; cases hc
    · rename_i hk; rw [hk] at hc; cases hc
    · rename_i hk; rw [hk] at hc; cases hc
    · rfl

theorem Descends.unique {r : Routine} {c : Cursor} {out out' : Outcome} (h : Descends r c out)
    (h' : Descends r c out') : out = out' := by
  induction h generalizing out' with
  | whole _ ih =>
    cases h' with
    | whole h => rw [ih h]
  | chain hl _ _ ihfirst ihmore =>
    cases h' with
    | chain hl' hfirst hmore =>
      cases hl.symm.trans hl'
      cases ihfirst hfirst
      exact ihmore hmore
    | neg => cases hl
    | atom => cases hl
    | name => cases hl
    | top => cases hl
    | bottom => cases hl
    | group => cases hl
    | missing => cases hl
  | failed => cases h'; rfl
  | done hstop =>
    cases h' with
    | done => rfl
    | again _ hc => exact absurd hc hstop
    | conditional hc => exact absurd hc hstop
  | again hop hc _ _ ihnext ihmore =>
    cases h' with
    | done hstop => exact absurd hc hstop
    | again _ _ hnext hmore =>
      cases ihnext hnext
      exact ihmore hmore
    | conditional => exact absurd rfl hop
  | conditional hc _ ih =>
    cases h' with
    | done hstop => exact absurd hc hstop
    | again hop => exact absurd rfl hop
    | conditional _ h => rw [ih h]
  | within hc _ ih =>
    cases h' with
    | within hc' h =>
      cases hc.symm.trans hc'
      exact ih h
    | tooDeep hc' => cases hc.symm.trans hc'
  | tooDeep hc =>
    cases h' with
    | within hc' => cases hc.symm.trans hc'
    | tooDeep hc' => cases hc.symm.trans hc'; rfl
  | neg hc _ ih =>
    cases h' with
    | chain hl => cases hl
    | neg _ h => rw [ih h]
    | atom hstop => exact absurd hc hstop
  | atom hstop _ ih =>
    cases h' with
    | chain hl => cases hl
    | neg hc => exact absurd hc hstop
    | atom _ h => exact ih h
  | name hc =>
    have := h'.atom_cases
    rw [hc] at this
    exact this.symm
  | top hc =>
    have := h'.atom_cases
    rw [hc] at this
    exact this.symm
  | bottom hc =>
    have := h'.atom_cases
    rw [hc] at this
    exact this.symm
  | group hc _ ih =>
    have := h'.atom_cases
    rw [hc] at this
    obtain ⟨inner, hinner, rfl⟩ := this
    rw [ih hinner]
  | missing hc =>
    have := h'.atom_cases
    split at this
    · rename_i hk; rw [hk] at hc; cases hc
    · rename_i hk; rw [hk] at hc; cases hc
    · rename_i hk; rw [hk] at hc; cases hc
    · rename_i hk; rw [hk] at hc; cases hc
    · exact this.symm

/-! ## The machine as a descent -/

theorem run_length_le (base : Level) (ts : List Token) (m : Machine) (pos : Nat) :
    (run base m pos ts).2.ahead.length ≤ ts.length := by
  induction ts generalizing m pos with
  | nil => exact Nat.le_refl _
  | cons t ts ih =>
    rcases hs : m.shift? base t with _ | m'
    · rw [run_of_stopped (show m.shift? base (nextToken (t :: ts)) = none from hs)]
    · rw [run_cons hs]
      exact Nat.le_succ_of_le (ih m' (pos + 1))

/-- At the cursor every routine ends as the machine does. -/
structure Computed (c : Cursor) : Prop where
  row : ∀ l, Descends (.row l) c (c.read l)
  more : ∀ (op : Connective) (f : Formula), (∀ next ∈ c.peek.connective?, next.strength < op.operandLevel.strength) →
    Descends (.more op (.ok f)) c (run op.level ⟨[], c.depth, .operator f⟩ c.pos c.ahead)

/-- A cursor in front of a token that is not the end. -/
theorem ahead_of_kind {c : Cursor} {k : Token.Kind} (h : c.peek.kind = k) (hk : k ≠ .finish) :
    ∃ t rest, c.ahead = t :: rest ∧ t = c.peek ∧ c.advance = ⟨rest, c.pos + 1, c.depth⟩ := by
  obtain ⟨ahead, pos, depth⟩ := c
  rcases ahead with _ | ⟨t, rest⟩
  · exact absurd h.symm hk
  · refine ⟨t, rest, rfl, rfl, ?_⟩
    unfold Cursor.advance
    rw [if_neg (by rw [h]; exact hk)]
    rfl

theorem enter_eq (c : Cursor) : c.enter.2 = { c with depth := c.depth + 1 } := by
  unfold Cursor.enter
  dsimp only
  split <;> rfl

theorem descends_within {c : Cursor} {l : Level} (h : Computed c.enter.2) :
    Descends (.within l) c (run l ⟨[], c.depth + 1, .opened⟩ c.pos c.ahead) := by
  rcases Int.lt_or_le nestingLimit (c.depth + 1) with hover | hfits
  · have henter : c.enter = (.error (.nestedTooDeep c.peek nestingLimit), { c with depth := c.depth + 1 }) := by
      unfold Cursor.enter
      exact if_pos hover
    rw [run_of_overflows (by simp [Machine.overflows, hover])]
    exact .tooDeep henter
  · have henter : c.enter = (.ok (), { c with depth := c.depth + 1 }) := by
      unfold Cursor.enter
      exact if_neg (Int.not_lt.2 hfits)
    rw [run_of_fits hfits]
    rw [henter] at h
    exact .within henter (h.row l)

/-- A connective takes the operand behind it in front of whatever stopped the operand. -/
theorem takesFirst_of_lt {op : Connective} {next : Option Connective}
    (h : ∀ c ∈ next, c.strength < op.rightLevel.strength) : takesFirst op next = true := by
  rcases next with _ | c
  · rfl
  · by_contra hfalse
    exact Nat.not_le.2 (h c rfl) (rightLevel_le_of_takesFirst (Bool.not_eq_true _ ▸ hfalse))

section Steps

variable {c : Cursor} {f : Formula}

theorem descends_again (ih : ∀ c', c'.ahead.length < c.ahead.length → Computed c') {op : Connective}
    (himplies : op ≠ .implies) (hop : c.peek.kind = .operator op) :
    Descends (.more op (.ok f)) c (run op.level ⟨[], c.depth, .operator f⟩ c.pos c.ahead) := by
  obtain ⟨t, rest, hahead, rfl, hadvance⟩ := ahead_of_kind hop (by simp)
  have hshift : Machine.shift? op.level ⟨[], c.depth, .operator f⟩ c.peek =
      some ⟨[.left op f], c.depth, .operand⟩ := by
    rw [shift_operator hop (reduce_nil (some op) f c.depth) fun _ => Nat.le_of_eq op.level_strength,
      if_neg himplies, Connective.opened_eq_zero himplies, Int.natCast_zero, Int.add_zero]
  -- the operand behind the connective is read on top of the connective
  have hrun : run op.level ⟨[], c.depth, .operator f⟩ c.pos c.ahead =
      resume op.level [.left op f] (c.advance.read op.operandLevel) := by
    rw [hahead, run_cons hshift, hadvance]
    exact run_on (by cases op <;> decide) (by rw [Connective.operandLevel_eq himplies]; exact Nat.le_refl _)
      (by simp) c.depth .operand (c.pos + 1) rest
  have hlength := run_length_le op.operandLevel rest (Machine.start c.depth) (c.pos + 1)
  have hshorter : ∀ c', c'.ahead.length ≤ rest.length → Computed c' := fun c' hc' =>
    ih c' (by rw [hahead]; exact Nat.lt_succ_of_le hc')
  refine .again himplies hop ((hshorter c.advance (by rw [hadvance])).row op.operandLevel) ?_
  rw [hrun]
  rcases hread : c.advance.read op.operandLevel with ⟨e | g, c'⟩
  · exact .failed
  · have hloose := next_of_run rest (by rw [← hread, hadvance]; rfl)
    have hreduce : reduce c'.peek.connective? g [.left op f] c'.depth =
        reduce c'.peek.connective? (.binary op f g) [] c'.depth := by
      rw [Connective.operandLevel_eq himplies] at hloose
      rw [reduce_left_of_takes (takesFirst_of_lt hloose), Connective.opened_eq_zero himplies, Int.natCast_zero,
        Int.sub_zero]
    rw [resume, run_congr hreduce]
    refine (hshorter c' ?_).more op _ hloose
    rw [hadvance] at hread
    rw [← show (run op.operandLevel (Machine.start c.depth) (c.pos + 1) rest).2 = c' from congrArg Prod.snd hread]
    exact hlength

/-- Behind a token that opens a level the row in it is read as the machine does. -/
theorem descends_opened (ih : ∀ c', c'.ahead.length < c.ahead.length → Computed c') {k : Token.Kind}
    (hc : c.peek.kind = k) (hk : k ≠ .finish) (l : Level) :
    ∃ rest, c.ahead = c.peek :: rest ∧
      Descends (.within l) c.advance (run l ⟨[], c.depth + 1, .opened⟩ (c.pos + 1) rest) := by
  obtain ⟨t, rest, hahead, rfl, hadvance⟩ := ahead_of_kind hc hk
  refine ⟨rest, hahead, ?_⟩
  have h := descends_within (c := c.advance) (l := l)
  rw [hadvance] at h ⊢
  exact h (ih _ (by rw [enter_eq, hahead]; exact Nat.lt_succ_self _))

/-- A frame that takes what is read on top of it closes the level behind that. -/
theorem resume_leaving {l : Level} {frame : Frame} {g : Formula → Formula}
    (hframe : ∀ (next : Option Connective) (f : Formula) (depth : Int), (∀ op ∈ next, op.strength < l.strength) →
      reduce next f [frame] depth = (g f, [], depth - 1)) (ts : List Token) (m : Machine) (pos : Nat) :
    resume l [frame] (run l m pos ts) = leaving g (run l m pos ts) := by
  rcases hread : run l m pos ts with ⟨e | f, c'⟩
  · rfl
  · have hloose := next_of_run ts hread
    exact run_stops (hframe _ f c'.depth hloose) hloose c'.pos

theorem descends_conditional (ih : ∀ c', c'.ahead.length < c.ahead.length → Computed c')
    (hop : c.peek.kind = .operator .implies) :
    Descends (.more .implies (.ok f)) c (run .implies ⟨[], c.depth, .operator f⟩ c.pos c.ahead) := by
  obtain ⟨rest, hahead, hwithin⟩ := descends_opened ih hop (by simp) .implies
  have hshift : Machine.shift? .implies ⟨[], c.depth, .operator f⟩ c.peek =
      some ⟨[.left .implies f], c.depth + 1, .opened⟩ :=
    shift_operator hop (reduce_nil (some .implies) f c.depth) fun _ => Nat.le_refl _
  have hrun : run .implies ⟨[], c.depth, .operator f⟩ c.pos c.ahead =
      resume .implies [.left .implies f] (run .implies ⟨[], c.depth + 1, .opened⟩ (c.pos + 1) rest) := by
    rw [hahead, run_cons hshift]
    exact run_on (l := .implies) (by decide) (Nat.le_refl _) (by simp) (c.depth + 1) .opened (c.pos + 1) rest
  rw [hrun, resume_leaving fun next g depth hloose => by
    rw [reduce_left_of_takes (takesFirst_of_lt hloose), reduce_nil]
    rfl]
  exact .conditional hop hwithin

/-- Behind an operand the loop of a connective goes on as the machine does. -/
theorem descends_more (ih : ∀ c', c'.ahead.length < c.ahead.length → Computed c') {op : Connective}
    (hnext : ∀ next ∈ c.peek.connective?, next.strength < op.operandLevel.strength) :
    Descends (.more op (.ok f)) c (run op.level ⟨[], c.depth, .operator f⟩ c.pos c.ahead) := by
  by_cases hop : c.peek.kind = .operator op
  · by_cases himplies : op = .implies
    · subst himplies
      exact descends_conditional ih hop
    · exact descends_again ih himplies hop
  · have hloose : ∀ next ∈ c.peek.connective?, next.strength < op.level.strength := by
      intro next hmem
      refine Connective.lt_level_of_lt_operandLevel (hnext next hmem) ?_
      rintro rfl
      exact hop (Token.connective?_eq_some.1 hmem)
    rw [run_stops (reduce_nil _ _ _) hloose]
    exact .done hop

theorem shift_waiting {base : Level} (depth : Int) (t : Token) :
    Machine.shift? base ⟨[], depth, .operand⟩ t = Machine.shiftOperand? base ⟨[], depth, .operand⟩ t := by
  simp [Machine.shift?, Machine.overflows]

theorem descends_neg (ih : ∀ c', c'.ahead.length < c.ahead.length → Computed c') (hneg : c.peek.kind = .negation) :
    Descends (.row .not) c (c.read .not) := by
  obtain ⟨rest, hahead, hwithin⟩ := descends_opened ih hneg (by simp) .not
  have hshift : Machine.shift? .not ⟨[], c.depth, .operand⟩ c.peek = some ⟨[.neg], c.depth + 1, .opened⟩ := by
    rw [shift_waiting, Machine.shiftOperand?, hneg]
    rfl
  have hrun : c.read .not = resume .not [.neg] (run .not ⟨[], c.depth + 1, .opened⟩ (c.pos + 1) rest) := by
    unfold Cursor.read Machine.start
    rw [hahead, run_cons hshift]
    exact run_on (l := .not) (by decide) (Nat.le_refl _) (by simp) (c.depth + 1) .opened (c.pos + 1) rest
  rw [hrun, resume_leaving fun next f depth _ => by rw [reduce_neg, reduce_nil]]
  exact .neg hneg hwithin

/-- A token that is an operand is read alone where every connective is looser. -/
theorem read_of_operand {base : Level} (hloose : ∀ op : Connective, op.strength < base.strength) {k : Token.Kind}
    (hc : c.peek.kind = k) (hk : k ≠ .finish)
    (hshift : Machine.shift? base ⟨[], c.depth, .operand⟩ c.peek = some ⟨[], c.depth, .operator f⟩) :
    c.read base = (.ok f, c.advance) := by
  obtain ⟨t, rest, hahead, rfl, hadvance⟩ := ahead_of_kind hc hk
  unfold Cursor.read Machine.start
  rw [hahead, run_cons hshift, run_stops (reduce_nil _ _ _) (fun op _ => hloose op), hadvance]

/-- Nothing that goes on with what is read in a parenthesis stops it, so the parenthesis is closed or missing. -/
theorem resume_paren {base : Level} (hloose : ∀ op : Connective, op.strength < base.strength) (ts : List Token)
    (m : Machine) (pos : Nat) : resume base [.paren] (run .iff m pos ts) = closing (run .iff m pos ts) := by
  rcases hread : run .iff m pos ts with ⟨e | g, c'⟩
  · rfl
  · have hnext : ∀ op, c'.peek.kind ≠ .operator op := by
      intro op hop
      have hlt := next_of_run ts hread op (Token.connective?_eq_some.2 hop)
      revert hlt
      cases op <;> decide
    by_cases hclose : c'.peek.kind = .rightParen
    · obtain ⟨t, rest, hahead, rfl, hadvance⟩ := ahead_of_kind hclose (by simp)
      rw [resume, closing, if_pos hclose, hahead, run_cons (shift_closing hclose (reduce_paren none g [] c'.depth)),
        run_stops (reduce_nil _ _ _) (fun op _ => hloose op), hadvance]
      rfl
    · have hstop : Machine.shift? base ⟨[.paren], c'.depth, .operator g⟩ (nextToken c'.ahead) = none := by
        rw [shift_behind]
        unfold Machine.shiftOperator?
        split
        · exact absurd ‹_› (hnext _)
        · exact absurd ‹_› hclose
        · rfl
      rw [resume, closing, if_neg hclose, run_of_stopped hstop, halt_behind, reduce_paren]
      rfl

/-- An operand that is no negation is an atom, also where a negation may stand. -/
theorem descends_atom (ih : ∀ c', c'.ahead.length < c.ahead.length → Computed c') {base : Level}
    (hbase : Level.not.strength ≤ base.strength) (hneg : base = .atom ∨ c.peek.kind ≠ .negation) :
    Descends (.row .atom) c (c.read base) := by
  have hloose : ∀ op : Connective, op.strength < base.strength := fun op =>
    Nat.lt_of_lt_of_le (strength_lt_not op) hbase
  by_cases hbegins : beginsAtom c.peek.kind = true
  · rcases hk : c.peek.kind with _ | _ | op | _ | _ | (_ | _) | _
    · obtain ⟨rest, hahead, hwithin⟩ := descends_opened ih hk (by simp) .iff
      have hshift : Machine.shift? base ⟨[], c.depth, .operand⟩ c.peek = some ⟨[.paren], c.depth + 1, .opened⟩ := by
        rw [shift_waiting, Machine.shiftOperand?, hk]
        rfl
      have hrun : c.read base = resume base [.paren] (run .iff ⟨[], c.depth + 1, .opened⟩ (c.pos + 1) rest) := by
        unfold Cursor.read Machine.start
        rw [hahead, run_cons hshift]
        exact run_on (l := .iff) (by decide) (Nat.le_refl _) (by simp) (c.depth + 1) .opened (c.pos + 1) rest
      rw [hrun, resume_paren hloose]
      exact .group hk hwithin
    · rw [hk] at hbegins; cases hbegins
    · rw [hk] at hbegins; cases hbegins
    · rw [hk] at hbegins; cases hbegins
    · rw [read_of_operand hloose hk (by simp) (by rw [shift_waiting, Machine.shiftOperand?, hk]; rfl)]
      exact .name hk
    · rw [read_of_operand hloose hk (by simp) (by rw [shift_waiting, Machine.shiftOperand?, hk]; rfl)]
      exact .bottom hk
    · rw [read_of_operand hloose hk (by simp) (by rw [shift_waiting, Machine.shiftOperand?, hk]; rfl)]
      exact .top hk
    · rw [hk] at hbegins; cases hbegins
  · have hstop : Machine.shift? base ⟨[], c.depth, .operand⟩ (nextToken c.ahead) = none := by
      rw [shift_waiting]
      unfold Machine.shiftOperand?
      split
      · rename_i hk; exact absurd (by rw [show c.peek.kind = _ from hk]; rfl) hbegins
      · rename_i hk; exact absurd (by rw [show c.peek.kind = _ from hk]; rfl) hbegins
      · rename_i hk; exact absurd (by rw [show c.peek.kind = _ from hk]; rfl) hbegins
      · rename_i hk; exact absurd (by rw [show c.peek.kind = _ from hk]; rfl) hbegins
      · rename_i hk
        exact if_pos ⟨hneg.resolve_right fun h => h hk, rfl⟩
      · rfl
    unfold Cursor.read Machine.start
    rw [run_of_stopped hstop]
    exact .missing (by simpa using hbegins)

theorem descends_chain (ih : ∀ c', c'.ahead.length < c.ahead.length → Computed c') {l : Level} {op : Connective}
    (hl : l.connective? = some op) (hrow : Descends (.row op.operandLevel) c (c.read op.operandLevel)) :
    Descends (.row l) c (c.read l) := by
  have hlevel : l = op.level := by revert hl; cases l <;> cases op <;> decide
  have hrun : c.read l = resume op.level [] (c.read op.operandLevel) := by
    subst hlevel
    exact run_on (by cases op <;> decide) (show Admits [] op.operandLevel from Level.iff_le _)
      (fun _ => by cases op <;> decide) c.depth .operand c.pos c.ahead
  refine .chain hl hrow ?_
  rw [hrun]
  have hlength := run_length_le op.operandLevel c.ahead (Machine.start c.depth) c.pos
  rcases hread : c.read op.operandLevel with ⟨e | f, c'⟩
  · exact .failed
  · rw [show run op.operandLevel (Machine.start c.depth) c.pos c.ahead = (.ok f, c') from hread] at hlength
    exact descends_more (fun c'' h => ih c'' (Nat.lt_of_lt_of_le h hlength)) (next_of_run c.ahead hread)

end Steps

/-- Every routine ends as the machine does: by the number of tokens ahead, and from the tightest level up. -/
theorem computed (c : Cursor) : Computed c := by
  induction hn : c.ahead.length using Nat.strong_induction_on generalizing c with
  | _ n ih =>
    have ih : ∀ c', c'.ahead.length < c.ahead.length → Computed c' := fun c' h => ih _ (hn ▸ h) c' rfl
    have hatom : Descends (.row .atom) c (c.read .atom) := descends_atom ih (by decide) (.inl rfl)
    have hnot : Descends (.row .not) c (c.read .not) := by
      by_cases hneg : c.peek.kind = .negation
      · exact descends_neg ih hneg
      · exact .atom hneg (descends_atom ih (by decide) (.inr hneg))
    have hand := descends_chain ih (l := .and) rfl hnot
    have hor := descends_chain ih (l := .or) rfl hand
    have himplies := descends_chain ih (l := .implies) rfl hor
    have hiff := descends_chain ih (l := .iff) rfl himplies
    refine ⟨fun l => ?_, fun op f hnext => descends_more ih hnext⟩
    cases l with
    | iff => exact hiff
    | implies => exact himplies
    | or => exact hor
    | and => exact hand
    | not => exact hnot
    | atom => exact hatom

theorem readAll_eq (c : Cursor) : c.readAll = ended (c.read .iff) := by
  unfold Cursor.readAll ended
  rcases c.read .iff with ⟨e | f, c'⟩ <;> rfl

/-- A routine that reads a row has one outcome, that of the machine. -/
theorem descends_row_iff {c : Cursor} {l : Level} {out : Outcome} : Descends (.row l) c out ↔ c.read l = out :=
  ⟨fun h => ((computed c).row l).unique h, fun h => h ▸ (computed c).row l⟩

theorem descends_whole_iff {c : Cursor} {out : Outcome} : Descends .whole c out ↔ c.readAll = out := by
  have h : Descends .whole c c.readAll := by
    rw [readAll_eq]
    exact .whole ((computed c).row .iff)
  exact ⟨fun h' => h.unique h', fun h' => h' ▸ h⟩

end Parser

end Deduction
