/-
How a text is spelled. Tokens that stand for the same node join a machine in the same way and stop the same machines
(`shift?_congr`, `halt_agrees`), whatever their texts and their places. So two runs over rows of such tokens go side
by side (`run_agrees`), and two texts that differ in how they spell their signs and in their blanks are read as one
formula, or refused for one cause at tokens of one index (`read_respelled`).
-/
import Deduction.Proofs.Formula.Cursor
import Deduction.Proofs.Formula.Prefix
import Deduction.Proofs.Formula.Yield
import Deduction.TruthTable.Basic

namespace Deduction

open Deduction.Parser
open Token (SameNode)

/-- The results are one formula, or one error but for the token that it is at: `t` the one and `u` the other. -/
inductive Agree (t u : Token) : Except FormulaError Formula → Except FormulaError Formula → Prop
  | formula (f : Formula) : Agree t u (.ok f) (.ok f)
  | unexpected (expected : String) :
      Agree t u (.error (.unexpectedToken t expected)) (.error (.unexpectedToken u expected))
  | tooDeep (limit : Nat) : Agree t u (.error (.nestedTooDeep t limit)) (.error (.nestedTooDeep u limit))

namespace Parser

/-- The outcomes are at one index, in front of tokens that stand for the same node, and agree but for these. -/
structure SideBySide (out out' : Outcome) : Prop where
  pos : out.2.pos = out'.2.pos
  next : SameNode out.2.peek out'.2.peek
  result : Agree out.2.peek out'.2.peek out.1 out'.1

/-! ## One token -/

section Token

variable {t u : Token}

theorem shiftOperand?_congr (base : Level) (m : Machine) (h : SameNode t u) :
    m.shiftOperand? base t = m.shiftOperand? base u := by
  unfold Machine.shiftOperand?
  rw [h.1]
  split
  · rename_i hu
    rw [h.2 (h.1.trans hu)]
  all_goals rfl

theorem shiftOperator?_congr (base : Level) (m : Machine) (f : Formula) (h : SameNode t u) :
    m.shiftOperator? base f t = m.shiftOperator? base f u := by
  unfold Machine.shiftOperator?
  rw [h.1]

/-- A machine does not see how a token is spelled, unless it is a name, nor where it stands. -/
theorem shift?_congr (base : Level) (m : Machine) (h : SameNode t u) : m.shift? base t = m.shift? base u := by
  unfold Machine.shift?
  rw [shiftOperand?_congr base m h]
  split
  · rfl
  · split
    · exact shiftOperator?_congr base m _ h
    · rfl

theorem halt_agrees (m : Machine) (t u : Token) : Agree t u (m.halt t).1 (m.halt u).1 := by
  unfold Machine.halt
  split
  · exact .tooDeep _
  · split
    · split
      · exact .formula _
      · exact .unexpected _
    · exact .unexpected _

end Token

/-! ## Rows of tokens -/

/-- Over rows of tokens that stand for the same nodes two runs of a machine go side by side. -/
theorem run_agrees (base : Level) {ts us : List Token} (h : List.Forall₂ SameNode ts us) (m : Machine) (pos : Nat) :
    SideBySide (run base m pos ts) (run base m pos us) := by
  induction h generalizing m pos with
  | nil => exact ⟨rfl, ⟨rfl, fun _ => rfl⟩, halt_agrees m Token.ending Token.ending⟩
  | @cons t u ts us htu _ ih =>
    rcases hs : m.shift? base t with _ | m'
    · rw [run_of_stopped (show m.shift? base (nextToken (t :: ts)) = none from hs),
        run_of_stopped (show m.shift? base (nextToken (u :: us)) = none from shift?_congr base m htu ▸ hs)]
      exact ⟨rfl, htu, halt_agrees m t u⟩
    · rw [run_cons hs, run_cons (shift?_congr base m htu ▸ hs)]
      exact ih m' (pos + 1)

theorem SideBySide.ended {out out' : Outcome} (h : SideBySide out out') : SideBySide (ended out) (ended out') := by
  obtain ⟨a, c⟩ := out
  obtain ⟨b, c'⟩ := out'
  obtain ⟨hpos, hnext, hresult⟩ := h
  dsimp only at hpos hnext hresult
  cases hresult with
  | formula f =>
    unfold Parser.ended
    dsimp only
    rw [hnext.1]
    split
    · exact ⟨hpos, hnext, .formula f⟩
    · exact ⟨hpos, hnext, .unexpected endExpected⟩
  | unexpected expected => exact ⟨hpos, hnext, .unexpected expected⟩
  | tooDeep limit => exact ⟨hpos, hnext, .tooDeep limit⟩

theorem readAll_agrees {ts us : List Token} (h : List.Forall₂ SameNode ts us) :
    SideBySide (Cursor.ofTokens ts).readAll (Cursor.ofTokens us).readAll := by
  rw [readAll_eq, readAll_eq]
  exact (run_agrees .iff h (Machine.start 0) 0).ended

end Parser

/-! ## Texts -/

theorem Token.closed_of_tokenize {s : String} {ts : List Token} (h : tokenize s = .ok ts) : closed ts = ts := by
  obtain ⟨w, rfl, -⟩ := scan_shape s.toList h
  simp [closed]

theorem Formula.read_of_tokenize {s : String} {ts : List Token} (h : tokenize s = .ok ts) : read s = parse ts := by
  rw [read, h]

/-- Where reading ends, the next token is the one of that index. -/
theorem Formula.getElem?_stopsAt {s : String} {ts : List Token} (h : tokenize s = .ok ts) :
    ts[stopsAt ts]? = some (Cursor.ofTokens ts).readAll.2.peek := by
  have hsees := (Cursor.sees_of_follows ((Cursor.ofTokens ts).follows_call .readAll)).1
  rw [Token.closed_of_tokenize h] at hsees
  exact hsees

/-- Whatever is asked of the formula of a text has one answer for both texts: its value under an assignment, its
table, its variables and its three printed forms. -/
structure Interchangeable [CallStack] (s t : String) : Prop where
  value : ∀ v : String → Bool, (Formula.read s).map (·.eval v) = (Formula.read t).map (·.eval v)
  table : ∀ limit, TruthTable.read s limit = TruthTable.read t limit
  vars : Formula.readVars s = Formula.readVars t
  markup : Formula.markupRecord s = Formula.markupRecord t
  canonical : (Formula.read s).bind (·.walk Formula.canonical) = (Formula.read t).bind (·.walk Formula.canonical)
  display : (Formula.read s).bind (·.walk Formula.display) = (Formula.read t).bind (·.walk Formula.display)

theorem Interchangeable.of_read [CallStack] {s t : String} (h : Formula.read s = Formula.read t) :
    Interchangeable s t where
  value v := by rw [h]
  table limit := by rw [TruthTable.read, TruthTable.read, h]
  vars := by rw [Formula.readVars, Formula.readVars, h]
  markup := by rw [Formula.markupRecord, Formula.markupRecord, Formula.readMarkup, Formula.readMarkup, h]
  canonical := by rw [h]
  display := by rw [h]

/-- Two texts with the same nodes and parentheses, however they spell them and whatever blanks stand between them,
are read up to one index, and either as one formula, so that they are interchangeable, or with one error but for
the token of that index. -/
theorem read_respelled [CallStack] (s t : String) (ts us : List Token) (hs : tokenize s = .ok ts)
    (ht : tokenize t = .ok us) (h : List.Forall₂ SameNode ts us) :
    Formula.stopsAt us = Formula.stopsAt ts ∧
      (∃ a b, ts[Formula.stopsAt ts]? = some a ∧ us[Formula.stopsAt ts]? = some b ∧
        Agree a b (Formula.read s) (Formula.read t)) ∧
      ∀ f, Formula.read s = .ok f → Formula.read t = .ok f ∧ Interchangeable s t := by
  obtain ⟨hpos, -, hresult⟩ := readAll_agrees h
  have hstops : Formula.stopsAt us = Formula.stopsAt ts := hpos.symm
  have hagree : Agree (Cursor.ofTokens ts).readAll.2.peek (Cursor.ofTokens us).readAll.2.peek
      (Formula.read s) (Formula.read t) := by
    rw [Formula.read_of_tokenize hs, Formula.read_of_tokenize ht]
    exact hresult
  refine ⟨hstops, ⟨_, _, Formula.getElem?_stopsAt hs, hstops ▸ Formula.getElem?_stopsAt ht, hagree⟩, fun f hf => ?_⟩
  have hread : Formula.read t = .ok f := by
    rw [hf] at hagree
    generalize Formula.read t = result at hagree
    cases hagree
    rfl
  exact ⟨hread, .of_read (hf.trans hread.symm)⟩

attribute [local instance] CallStack.usual

/-- One formula in two spellings, and one parenthesis that is left open in two. -/
theorem read_respelled_pairs :
    Interchangeable "~p && q -> F" " ¬p∧q  →⊥" ∧
    Formula.read "(p || q" = .error (.unexpectedToken ⟨.finish, "", 7⟩ closingExpected) ∧
    Formula.read "( p|q" = .error (.unexpectedToken ⟨.finish, "", 5⟩ closingExpected) := by
  have hformula := read_respelled "~p && q -> F" " ¬p∧q  →⊥"
    [⟨.negation, "~", 0⟩, ⟨.identifier, "p", 1⟩, ⟨.operator .and, "&&", 3⟩, ⟨.identifier, "q", 6⟩,
      ⟨.operator .implies, "->", 8⟩, ⟨.constant false, "F", 11⟩, ⟨.finish, "", 12⟩]
    [⟨.negation, "¬", 1⟩, ⟨.identifier, "p", 2⟩, ⟨.operator .and, "∧", 3⟩, ⟨.identifier, "q", 4⟩,
      ⟨.operator .implies, "→", 7⟩, ⟨.constant false, "⊥", 8⟩, ⟨.finish, "", 9⟩]
    (by decide +kernel) (by decide +kernel) (by simp [SameNode])
  obtain ⟨-, ⟨a, b, -, hb, hagree⟩, -⟩ := read_respelled "(p || q" "( p|q"
    [⟨.leftParen, "(", 0⟩, ⟨.identifier, "p", 1⟩, ⟨.operator .or, "||", 3⟩, ⟨.identifier, "q", 6⟩, ⟨.finish, "", 7⟩]
    [⟨.leftParen, "(", 0⟩, ⟨.identifier, "p", 2⟩, ⟨.operator .or, "|", 3⟩, ⟨.identifier, "q", 4⟩, ⟨.finish, "", 5⟩]
    (by decide +kernel) (by decide +kernel) (by simp [SameNode])
  have hread : Formula.read "(p || q" = .error (.unexpectedToken ⟨.finish, "", 7⟩ closingExpected) := by
    decide +kernel
  refine ⟨(hformula.2.2 _ rfl).2, hread, ?_⟩
  have hfinish : b = ⟨.finish, "", 5⟩ := Option.some.inj (hb.symm.trans (by decide +kernel))
  rw [hread] at hagree
  generalize Formula.read "( p|q" = result at hagree ⊢
  cases hagree
  rw [hfinish]

end Deduction
