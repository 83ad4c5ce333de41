/-
What may still become a formula. A machine that has not opened a level too many can be brought to a formula from
wherever it is, by an operand if it waits for one and a closing parenthesis for each one that is open
(`run_completion`); and what a machine does not take begins no formula (`shiftAll?_of_begins`). So reading goes
wrong at the earliest token at which it can: the tokens in front of it can be completed, and with it they cannot,
nor with the token that has opened a level too many (`timely_of_parse`).
-/
import Deduction.Proofs.Formula.Descent

namespace Deduction

namespace Parser

/-! ## Rows that a machine takes -/

/-- The machine after a row of tokens, or `none` if one of them stops it. -/
def Machine.shiftAll? (base : Level) (m : Machine) (ts : List Token) : Option Machine :=
  ts.foldlM (fun m t => m.shift? base t) m

section Rows

variable {base : Level} {m m' : Machine} {t : Token} {u v : List Token}

theorem shiftAll?_append :
    m.shiftAll? base (u ++ v) = (m.shiftAll? base u).bind fun m' => m'.shiftAll? base v :=
  List.foldlM_append

theorem shiftAll?_concat : m.shiftAll? base (u ++ [t]) = (m.shiftAll? base u).bind fun m' => m'.shift? base t := by
  rw [shiftAll?_append]
  congr 1
  funext m'
  exact bind_pure _

theorem overflows_of_shift? (h : m.shift? base t = some m') : m.overflows = false := by
  by_contra hover
  rw [Machine.shift?, if_pos (by simpa using hover)] at h
  cases h

/-- A machine that takes more tokens had not opened a level too many, or takes none. -/
theorem overflows_of_shiftAll? (h : m.shiftAll? base u = some m') (h' : m'.overflows = false) :
    m.overflows = false := by
  rcases u with _ | ⟨t, u⟩
  · cases h
    exact h'
  · obtain ⟨m'', hshift, -⟩ := Option.bind_eq_some_iff.1 (show (m.shift? base t).bind _ = some m' from h)
    exact overflows_of_shift? hshift

theorem run_append (h : m.shiftAll? base u = some m') (pos : Nat) (ts : List Token) :
    run base m pos (u ++ ts) = run base m' (pos + u.length) ts := by
  induction u generalizing m pos with
  | nil =>
    cases h
    rfl
  | cons t u ih =>
    obtain ⟨m'', hshift, hrest⟩ := Option.bind_eq_some_iff.1 (show (m.shift? base t).bind _ = some m' from h)
    rw [List.cons_append, run_cons hshift, ih hrest, List.length_cons, Nat.add_right_comm, Nat.add_assoc]

/-- A machine takes the tokens up to one that stops it. -/
theorem exists_stopped (base : Level) (m : Machine) (ts : List Token) :
    ∃ u rest m', ts = u ++ rest ∧ m.shiftAll? base u = some m' ∧ m'.shift? base (nextToken rest) = none := by
  induction ts generalizing m with
  | nil => exact ⟨[], [], m, rfl, rfl, shift?_finish m rfl⟩
  | cons t ts ih =>
    rcases hshift : m.shift? base t with _ | m''
    · exact ⟨[], t :: ts, m, rfl, rfl, hshift⟩
    · obtain ⟨u, rest, m', rfl, htaken, hstop⟩ := ih m''
      exact ⟨t :: u, rest, m', rfl, Option.bind_eq_some_iff.2 ⟨m'', hshift, htaken⟩, hstop⟩

end Rows

/-! ## Completions -/

/-- A closing parenthesis for each one that waits on the stack. -/
def closings (stack : List Frame) : List Token :=
  List.replicate (stack.count .paren) ⟨.rightParen, ")", 0⟩

/-- Tokens that bring a machine to a formula. -/
def Machine.completion (m : Machine) : List Token :=
  match m.due with
  | .operator _ => closings m.stack
  | _ => ⟨.constant true, "T", 0⟩ :: closings m.stack

theorem completion_kind_ne_finish (m : Machine) : ∀ t ∈ m.completion, t.kind ≠ .finish := by
  have hclosings : ∀ t ∈ closings m.stack, t.kind ≠ .finish := by
    intro t ht
    rw [List.eq_of_mem_replicate ht]
    simp
  unfold Machine.completion
  split
  · exact hclosings
  · intro t ht
    rcases List.mem_cons.1 ht with rfl | ht
    · simp
    · exact hclosings t ht

@[simp] theorem closings_paren (stack : List Frame) :
    closings (.paren :: stack) = ⟨.rightParen, ")", 0⟩ :: closings stack := by
  unfold closings
  rw [List.count_cons_self, List.replicate_succ]

theorem closings_of_ne {frame : Frame} (h : frame ≠ .paren) (stack : List Frame) :
    closings (frame :: stack) = closings stack := by
  unfold closings
  rw [List.count_cons_of_ne h]

section Completions

variable {e : Token}

theorem connective?_closings (he : e.kind = .finish) (stack : List Frame) :
    (nextToken (closings stack ++ [e])).connective? = none := by
  unfold closings nextToken
  cases stack.count .paren with
  | zero =>
    rw [List.replicate_zero, List.nil_append, List.head?_cons, Option.getD_some, Token.connective?, he]
  | succ n => rw [List.replicate_succ]; rfl

/-- Behind an operand the parentheses that are open are closed one by one. -/
theorem run_closings (base : Level) (he : e.kind = .finish) (stack : List Frame) (depth : Int) (f : Formula) (pos : Nat) :
    ∃ g c, run base ⟨stack, depth, .operator f⟩ pos (closings stack ++ [e]) = (.ok g, c) ∧ c.peek = e := by
  have hnone := connective?_closings he
  induction stack generalizing depth f pos with
  | nil =>
    refine ⟨f, _, run_stops (reduce_nil _ f depth) (fun op hop => ?_) pos, rfl⟩
    rw [hnone] at hop
    cases hop
  | cons frame stack ih =>
    rcases frame with _ | _ | ⟨op, a⟩
    · rw [closings_paren, List.cons_append, run_cons (shift_closing rfl (reduce_paren none f stack depth))]
      exact ih (depth - 1) f (pos + 1)
    · rw [closings_of_ne (by simp), run_congr (reduce_neg _ f stack depth)]
      exact ih (depth - 1) (.neg f) pos
    · have hreduce : reduce (nextToken (closings stack ++ [e])).connective? f (.left op a :: stack) depth =
          reduce (nextToken (closings stack ++ [e])).connective? (.binary op a f) stack (depth - op.opened) := by
        rw [hnone]
        exact reduce_left_of_takes (takesFirst_none op) a f stack depth
      rw [closings_of_ne (by simp), run_congr hreduce]
      exact ih (depth - op.opened) (.binary op a f) pos

/-- A machine that has not opened a level too many comes to a formula. -/
theorem run_completion (base : Level) {m : Machine} (h : m.overflows = false) (he : e.kind = .finish) (pos : Nat) :
    ∃ g c, run base m pos (m.completion ++ [e]) = (.ok g, c) ∧ c.peek = e := by
  obtain ⟨stack, depth, due⟩ := m
  have hshift : (∀ f, due ≠ .operator f) →
      Machine.shift? base ⟨stack, depth, due⟩ ⟨.constant true, "T", 0⟩ = some ⟨stack, depth, .operator .top⟩ := by
    intro hdue
    unfold Machine.shift?
    rw [h]
    rcases due with _ | _ | f
    · rfl
    · rfl
    · exact absurd rfl (hdue f)
  rcases due with _ | _ | f
  · exact run_cons (hshift (by simp)) pos _ ▸ run_closings base he stack depth .top (pos + 1)
  · exact run_cons (hshift (by simp)) pos _ ▸ run_closings base he stack depth .top (pos + 1)
  · exact run_closings base he stack depth f pos

end Completions

end Parser

open Deduction.Parser

/-! ## Beginnings of formulas -/

namespace Formula

/-- Some list that begins with the tokens is read as a formula. -/
def Begins (u : List Token) : Prop :=
  ∃ rest f, parse (u ++ rest) = .ok f

/-- With some tokens and one end behind them, the tokens are read as a formula. -/
def Completable (u : List Token) : Prop :=
  ∃ v e f, (∀ t ∈ v, t.kind ≠ .finish) ∧ e.kind = .finish ∧ parse (u ++ v ++ [e]) = .ok f

theorem readAll_append {u : List Token} {m : Machine} (h : (Machine.start 0).shiftAll? .iff u = some m)
    (ts : List Token) : (Cursor.ofTokens (u ++ ts)).readAll = ended (run .iff m u.length ts) := by
  rw [readAll_eq]
  show ended (run .iff (Machine.start 0) 0 (u ++ ts)) = _
  rw [run_append h, Nat.zero_add]

/-- What a machine takes without opening a level too many can be completed. -/
theorem completable_of_shiftAll? {u : List Token} {m : Machine}
    (h : (Machine.start 0).shiftAll? .iff u = some m) (hfits : m.overflows = false) : Completable u := by
  obtain ⟨g, c, hrun, hpeek⟩ := run_completion .iff hfits (rfl : Token.ending.kind = .finish) u.length
  refine ⟨m.completion, Token.ending, g, completion_kind_ne_finish m, rfl, ?_⟩
  rw [List.append_assoc, parse, readAll_append h, hrun, ended, if_pos (by rw [hpeek]; rfl)]

/-- What a formula begins with is taken by the machine, which has not opened a level too many then. -/
theorem shiftAll?_of_begins {u : List Token} (h : Begins u) (hu : ∀ t ∈ u, t.kind ≠ .finish) :
    ∃ m, (Machine.start 0).shiftAll? .iff u = some m ∧ m.overflows = false := by
  obtain ⟨back, f, hparse⟩ := h
  obtain ⟨front, rest, m, happend, htaken, hstop⟩ := exists_stopped .iff (Machine.start 0) (u ++ back)
  rw [parse, happend, readAll_append htaken, run_of_stopped hstop] at hparse
  rcases hhalt : (m.halt (nextToken rest)).1 with e | g
  · rw [hhalt] at hparse
    cases hparse
  -- the machine stopped at an end, so behind all of the tokens
  · have hend : (nextToken rest).kind = .finish := by
      by_contra hend
      have hpeek : Cursor.peek ⟨rest, front.length, (m.halt (nextToken rest)).2⟩ = nextToken rest := rfl
      rw [hhalt, ended, hpeek, if_neg hend] at hparse
      cases hparse
    have hfits : m.overflows = false := by
      by_contra hover
      rw [Machine.halt, if_pos (by simpa using hover)] at hhalt
      cases hhalt
    rcases List.append_eq_append_iff.1 happend with ⟨x, rfl, -⟩ | ⟨x, rfl, rfl⟩
    · rw [shiftAll?_append] at htaken
      obtain ⟨m', hm', hrest⟩ := Option.bind_eq_some_iff.1 htaken
      exact ⟨m', hm', overflows_of_shiftAll? hrest hfits⟩
    · rcases x with _ | ⟨t, x⟩
      · rw [List.append_nil]
        exact ⟨m, htaken, hfits⟩
      · exact absurd hend (hu t (by simp))

theorem not_begins_of_stopped {u : List Token} {m : Machine} {t : Token}
    (h : (Machine.start 0).shiftAll? .iff u = some m) (hstop : m.shift? .iff t = none)
    (hu : ∀ t ∈ u, t.kind ≠ .finish) (ht : t.kind ≠ .finish) : ¬ Begins (u ++ [t]) := by
  intro hbegins
  obtain ⟨m', hm', -⟩ := shiftAll?_of_begins hbegins (by simpa [or_imp, forall_and] using ⟨hu, ht⟩)
  rw [shiftAll?_concat, h, Option.bind_some, hstop] at hm'
  cases hm'

theorem not_begins_of_overflows {u : List Token} {m : Machine}
    (h : (Machine.start 0).shiftAll? .iff u = some m) (hover : m.overflows = true)
    (hu : ∀ t ∈ u, t.kind ≠ .finish) : ¬ Begins u := by
  intro hbegins
  obtain ⟨m', hm', hfits⟩ := shiftAll?_of_begins hbegins hu
  cases h.symm.trans hm'
  cases hover.symm.trans hfits

/-! ## Where reading goes wrong -/

/-- The number of tokens in front of the one at which reading ends. -/
def stopsAt (ts : List Token) : Nat :=
  (Cursor.ofTokens ts).readAll.2.pos

end Formula

open Formula (Begins Completable)

/-- What an error at the token `t`, in front of which there are `k` of the tokens, says of them: a token that is
refused is the first one with which no formula begins, and a level is refused as soon as it is opened. -/
inductive Timely (ts : List Token) (k : Nat) (t : Token) : FormulaError → Prop
  | unexpected {expected : String} : Completable (ts.take k) →
      (t.kind ≠ .finish → ¬ Begins (ts.take (k + 1))) → Timely ts k t (.unexpectedToken t expected)
  | tooDeep : 0 < k → Completable (ts.take (k - 1)) → ¬ Begins (ts.take k) →
      Timely ts k t (.nestedTooDeep t nestingLimit)

namespace Parser

/-- A machine that opens a level too many does so with the last token that it takes. -/
theorem exists_opener {u : List Token} {m : Machine} (h : (Machine.start 0).shiftAll? .iff u = some m)
    (hover : m.overflows = true) :
    ∃ u' t m', u = u' ++ [t] ∧ (Machine.start 0).shiftAll? .iff u' = some m' ∧ m'.overflows = false := by
  rcases List.eq_nil_or_concat u with rfl | ⟨u', t, rfl⟩
  · cases h
    cases hover
  · rw [List.concat_eq_append, shiftAll?_concat] at h
    obtain ⟨m', hm', hshift⟩ := Option.bind_eq_some_iff.1 h
    exact ⟨u', t, m', List.concat_eq_append, hm', overflows_of_shift? hshift⟩

theorem ended_pos (out : Outcome) : (ended out).2.pos = out.2.pos := by
  obtain ⟨_ | f, c⟩ := out
  · rfl
  · unfold ended
    dsimp only
    split <;> rfl

/-- Where a machine that has not opened a level too many stops, the token that stops it is refused or the end. -/
theorem unexpected_of_ended {m : Machine} (hfits : m.overflows = false) {ts : List Token} {pos : Nat}
    {depth : Int} {error : FormulaError}
    (h : (ended ((m.halt (nextToken ts)).1, ⟨ts, pos, depth⟩)).1 = .error error) :
    ∃ expected, error = .unexpectedToken (nextToken ts) expected := by
  have hhalt : ∀ e, (m.halt (nextToken ts)).1 = .error e → ∃ expected, e = .unexpectedToken (nextToken ts) expected := by
    intro e he
    unfold Machine.halt at he
    rw [if_neg (by simp [hfits])] at he
    split at he
    · split at he
      · cases he
      · cases he; exact ⟨_, rfl⟩
    · cases he; exact ⟨_, rfl⟩
  rcases hout : (m.halt (nextToken ts)).1 with e | f
  · rw [hout] at h
    cases h
    exact hhalt _ hout
  · rw [hout] at h
    unfold ended at h
    dsimp only at h
    split at h
    · cases h
    · cases h; exact ⟨_, rfl⟩

end Parser

section Stops

variable {u x : List Token} {m : Machine}

/-- A token that stops a machine within the limit is refused, unless it is the end, as the first one that can be. -/
theorem timely_unexpected (h : (Machine.start 0).shiftAll? .iff u = some m) (hfits : m.overflows = false)
    (hu : ∀ t ∈ u, t.kind ≠ .finish) {t : Token} (hstop : m.shift? .iff t = none)
    (ht : t.kind ≠ .finish → ∃ y, x = t :: y) (expected : String) :
    Timely (u ++ x) u.length t (.unexpectedToken t expected) := by
  refine .unexpected ?_ fun hkind => ?_
  · rw [List.take_left]
    exact Formula.completable_of_shiftAll? h hfits
  · obtain ⟨y, rfl⟩ := ht hkind
    have htake : (u ++ t :: y).take (u.length + 1) = u ++ [t] := by
      rw [List.take_length_add_append]
      rfl
    rw [htake]
    exact Formula.not_begins_of_stopped h hstop hu hkind

/-- A machine that has opened a level too many has done so with the first token that can. -/
theorem timely_tooDeep (h : (Machine.start 0).shiftAll? .iff u = some m) (hover : m.overflows = true)
    (hu : ∀ t ∈ u, t.kind ≠ .finish) (t : Token) :
    Timely (u ++ x) u.length t (.nestedTooDeep t nestingLimit) := by
  obtain ⟨u', opener, m', rfl, htaken, hfits⟩ := exists_opener h hover
  refine .tooDeep (by simp) ?_ ?_
  · have htake : (u' ++ [opener] ++ x).take ((u' ++ [opener]).length - 1) = u' := by
      rw [List.append_assoc, List.length_append, List.length_singleton, Nat.add_sub_cancel, List.take_left]
    rw [htake]
    exact Formula.completable_of_shiftAll? htaken hfits
  · rw [List.take_left]
    exact Formula.not_begins_of_overflows h hover hu

end Stops

/-- Where the tokens in front of an end are not read as a formula, reading goes wrong at the earliest token: with
the tokens in front of a refused one a formula begins and with the refused one none, and none begins with a token
that opens a level too many. -/
theorem timely_of_parse (w : List Token) (e : Token) (hw : ∀ t ∈ w, t.kind ≠ .finish) (he : e.kind = .finish)
    (error : FormulaError) (h : Formula.parse (w ++ [e]) = .error error) :
    ∃ t, (w ++ [e])[Formula.stopsAt (w ++ [e])]? = some t ∧
      Timely w (Formula.stopsAt (w ++ [e])) t error := by
  obtain ⟨u, x, m, rfl, htaken, hstop⟩ := exists_stopped .iff (Machine.start 0) w
  have hu : ∀ t ∈ u, t.kind ≠ .finish := fun t ht => hw t (by simp [ht])
  obtain ⟨t, back, hback⟩ : ∃ t back, x ++ [e] = t :: back := List.exists_cons_of_ne_nil (by simp)
  -- the token in the way is the next one of the row, or the end
  have hcases : m.shift? .iff t = none ∧ (t.kind ≠ .finish → ∃ y, x = t :: y) := by
    rcases x with _ | ⟨t', y⟩
    · obtain ⟨rfl, -⟩ := List.cons.inj hback
      exact ⟨shift?_finish m he, fun hkind => absurd he hkind⟩
    · obtain ⟨rfl, -⟩ := List.cons.inj hback
      exact ⟨hstop, fun _ => ⟨y, rfl⟩⟩
  have hread := Formula.readAll_append htaken (t :: back)
  rw [run_of_stopped (show m.shift? .iff (nextToken (t :: back)) = none from hcases.1), ← hback,
    ← List.append_assoc] at hread
  have hstops : Formula.stopsAt (u ++ x ++ [e]) = u.length := by
    rw [Formula.stopsAt, hread, ended_pos]
  rw [Formula.parse, hread, hback] at h
  rw [hstops]
  refine ⟨t, ?_, ?_⟩
  · rw [List.append_assoc, hback, List.getElem?_append_right (Nat.le_refl _), Nat.sub_self, List.getElem?_cons_zero]
  · cases hover : m.overflows with
    | false =>
      obtain ⟨expected, rfl⟩ := unexpected_of_ended hover h
      exact timely_unexpected htaken hover hu hcases.1 hcases.2 expected
    | true =>
      rw [Machine.halt, if_pos hover] at h
      cases h
      exact timely_tooDeep htaken hover hu t

/-- A parenthesis is closed too early, and a level too many is opened. -/
theorem timely_of_parse_closed :
    (Formula.parse [⟨.leftParen, "(", 0⟩, ⟨.identifier, "p", 1⟩, ⟨.operator .or, "|", 3⟩, ⟨.rightParen, ")", 5⟩,
        ⟨.identifier, "q", 7⟩, Token.ending] = .error (.unexpectedToken ⟨.rightParen, ")", 5⟩ operandExpected) ∧
      Completable [⟨.leftParen, "(", 0⟩, ⟨.identifier, "p", 1⟩, ⟨.operator .or, "|", 3⟩] ∧
      ¬ Begins [⟨.leftParen, "(", 0⟩, ⟨.identifier, "p", 1⟩, ⟨.operator .or, "|", 3⟩, ⟨.rightParen, ")", 5⟩]) ∧
    Formula.parse (List.replicate 102 ⟨.negation, "~", 0⟩ ++ [Token.ending]) =
      .error (.nestedTooDeep ⟨.negation, "~", 0⟩ nestingLimit) ∧
    Completable (List.replicate 100 ⟨.negation, "~", 0⟩) ∧ ¬ Begins (List.replicate 101 ⟨.negation, "~", 0⟩) := by
  constructor
  · refine ⟨rfl, ?_⟩
    obtain ⟨t, ht, htimely⟩ := timely_of_parse
      [⟨.leftParen, "(", 0⟩, ⟨.identifier, "p", 1⟩, ⟨.operator .or, "|", 3⟩, ⟨.rightParen, ")", 5⟩,
        ⟨.identifier, "q", 7⟩] Token.ending (by decide) rfl
      (.unexpectedToken ⟨.rightParen, ")", 5⟩ operandExpected) rfl
    cases htimely with
    | unexpected hfront hback => exact ⟨hfront, hback (by decide)⟩
  · have hdeep : Formula.parse (List.replicate 102 ⟨.negation, "~", 0⟩ ++ [Token.ending]) =
        .error (.nestedTooDeep ⟨.negation, "~", 0⟩ nestingLimit) := by
      decide +kernel
    refine ⟨hdeep, ?_⟩
    obtain ⟨t, ht, htimely⟩ := timely_of_parse (List.replicate 102 ⟨.negation, "~", 0⟩) Token.ending (by decide) rfl
      (.nestedTooDeep ⟨.negation, "~", 0⟩ nestingLimit) hdeep
    have hstops : Formula.stopsAt (List.replicate 102 ⟨.negation, "~", 0⟩ ++ [Token.ending]) = 101 := by
      decide +kernel
    rw [hstops] at htimely
    cases htimely with
    | tooDeep _ hfront hback => exact ⟨hfront, hback⟩

end Deduction
