/-
The typeset markup of a text. Markup leaves the grouping of a tree out, so it is the yield of the tree, node by
node, with a blank between any two (`Yields.markup_eq`). So the markup of a text that is read as a formula is
told by its tokens alone, and so are the names it has (`markup_of_tokens`): reading loses no token, adds none and
moves none.
-/
import Deduction.Proofs.Formula.RoundTrip
import Deduction.Proofs.Formula.Variables

namespace Deduction

/-- How a token is typeset: a name as it stands, and every other node of a tree by the command of its kind. -/
def Token.typeset (t : Token) : String :=
  match t.kind with
  | .negation => "\\neg"
  | .operator .and => "\\land"
  | .operator .or => "\\lor"
  | .operator .implies => "\\to"
  | .operator .iff => "\\leftrightarrow"
  | .constant true => "\\top"
  | .constant false => "\\bot"
  | _ => t.text

/-- The tokens that are nodes of a tree, typeset in the order in which they stand. -/
def Token.typesetAll (ts : List Token) : String :=
  " ".intercalate ((Token.bare ts).map Token.typeset)

namespace Yields

variable {f : Formula} {w : List Token}

theorem ne_nil (h : Yields f w) : w ≠ [] := by
  cases h <;> simp

/-- The markup of a tree is its yield, typeset node by node. -/
theorem markup_eq (h : Yields f w) : f.markup = " ".intercalate (w.map Token.typeset) := by
  induction h with
  | name ht =>
    rw [List.map_singleton, String.intercalate_singleton, Token.typeset, ht, Formula.markup]
  | top ht =>
    rw [List.map_singleton, String.intercalate_singleton, Token.typeset, ht, Formula.markup]
  | bottom ht =>
    rw [List.map_singleton, String.intercalate_singleton, Token.typeset, ht, Formula.markup]
  | @neg t _ _ ht ha ih =>
    have hsign : t.typeset = "\\neg" := by rw [Token.typeset, ht]
    rw [List.map_cons, String.intercalate_cons_of_ne_nil (by simpa using ha.ne_nil), ← ih, hsign, Formula.markup]
    rfl
  | @binary t op _ _ _ _ ht ha hb iha ihb =>
    have hsign : t.typeset = op.command := by
      rw [Token.typeset, ht]
      cases op <;> rfl
    rw [List.map_append, List.map_cons, String.intercalate_append_of_ne_nil (by simpa using ha.ne_nil) (by simp),
      String.intercalate_cons_of_ne_nil (by simpa using hb.ne_nil), ← iha, ← ihb, hsign, Formula.markup]
    simp only [String.append_assoc]

end Yields

namespace Formula

variable [CallStack]

theorem markupRecord_of_walk {s m : String} {f : Formula} (h : read s = .ok f) (hm : f.walk markup = .ok m) :
    markupRecord s = .dict [("markup", .text m)] := by
  rw [markupRecord, readMarkup, h]
  dsimp only
  rw [hm]

theorem markupRecord_of_error {s : String} {e : FormulaError} (h : read s = .error e) :
    markupRecord s = .dict [("markup", .text ""), ("error", .text e.message)] := by
  rw [markupRecord, readMarkup, h]

theorem readVars_of_le {s : String} {f : Formula} (h : read s = .ok f) (hf : f.height ≤ CallStack.levels) :
    readVars s = .ok f.vars := by
  rw [readVars, h]
  exact walk_of_le hf vars

end Formula

/-- A text that is read as a formula that may be walked is typeset token by token, and its variables are the names
among its tokens, each once and in order. A text that is refused has an empty markup and the message why. -/
theorem markup_of_tokens [CallStack] (s : String) :
    (∀ f, Formula.read s = .ok f → f.height ≤ CallStack.levels →
      ∃ ts, tokenize s = .ok ts ∧ Formula.markupRecord s = .dict [("markup", .text (Token.typesetAll ts))] ∧
        ∃ names, Formula.readVars s = .ok names ∧ names.Pairwise (· < ·) ∧
          ∀ n, n ∈ names ↔ ∃ t ∈ ts, t.kind = .identifier ∧ t.text = n) ∧
    ∀ e, Formula.read s = .error e →
      Formula.markupRecord s = .dict [("markup", .text ""), ("error", .text e.message)] := by
  refine ⟨fun f h hf => ?_, fun e h => Formula.markupRecord_of_error h⟩
  obtain ⟨ts, hts, hyields⟩ := Formula.yields_of_read h
  refine ⟨ts, hts, ?_, f.vars, Formula.readVars_of_le h hf, f.vars_pairwise, fun n => ?_⟩
  · rw [Token.typesetAll, ← hyields.markup_eq]
    exact Formula.markupRecord_of_walk h (Formula.walk_of_le hf _)
  · rw [Formula.mem_vars_of_read h]
    constructor
    · rintro ⟨us, hus, hn⟩
      cases hts.symm.trans hus
      exact hn
    · exact fun hn => ⟨ts, hts, hn⟩

attribute [local instance] CallStack.usual

/-- Of a text in mixed spellings the parentheses go and the rest stays in order; a text that breaks off has none. -/
theorem markup_of_tokens_spellings :
    (∃ f, Formula.read "(q /\\ !p) → ⊤ <-> F || q" = .ok f ∧ f.height ≤ CallStack.levels) ∧
    Formula.markupRecord "(q /\\ !p) → ⊤ <-> F || q" =
      .dict [("markup", .text "q \\land \\neg p \\to \\top \\leftrightarrow \\bot \\lor q")] ∧
    Formula.readVars "(q /\\ !p) → ⊤ <-> F || q" = .ok ["p", "q"] ∧
    Formula.markupRecord "p ||" = .dict [("markup", .text ""),
      ("error", .text "Unexpected token: 'EOF' at position 4 (expected a variable, constant or '(')")] := by
  have htokens : (tokenize "(q /\\ !p) → ⊤ <-> F || q").map Token.typesetAll =
      .ok "q \\land \\neg p \\to \\top \\leftrightarrow \\bot \\lor q" := by
    decide +kernel
  obtain ⟨f, hread, hf⟩ : ∃ f, Formula.read "(q /\\ !p) → ⊤ <-> F || q" = .ok f ∧ f.height ≤ CallStack.levels :=
    ⟨_, rfl, by decide +kernel⟩
  obtain ⟨ts, hts, hmarkup, -⟩ := (markup_of_tokens "(q /\\ !p) → ⊤ <-> F || q").1 f hread hf
  rw [hts] at htokens
  refine ⟨⟨f, hread, hf⟩, ?_, by decide +kernel, ?_⟩
  · rw [hmarkup, Except.ok.inj htokens]
  · have hmessage : (FormulaError.unexpectedToken ⟨.finish, "", 4⟩ Parser.operandExpected).message =
        "Unexpected token: 'EOF' at position 4 (expected a variable, constant or '(')" := by
      decide +kernel
    rw [(markup_of_tokens "p ||").2 (.unexpectedToken ⟨.finish, "", 4⟩ Parser.operandExpected) rfl, hmessage]

end Deduction
