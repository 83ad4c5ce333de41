/-
Texts that write formulas, whatever their nesting. A text is read as a formula when it writes it with
no more levels than the limit (`Formula.read_eq_ok_iff`), and it writes one formula at most
(`Writes.unique`). Two texts in parentheses with a connective between them write the connective of
what they write (`Writes.combined`), and the display text of a formula whose variables are names writes
the formula (`Formula.display_writes`).
-/
import Deduction.Proof.Derive
import Deduction.Proofs.Formula.Recognition

namespace Deduction

open Token (Lexes IsName)

/-- The text writes the formula: the grammar derives its tokens with that tree, and `m` is the largest
number of levels of nesting that one of them lies under. -/
def Writes (s : String) (f : Formula) (m : Nat) : Prop :=
  ∃ w : List Token, Lexes s.toList (w.map Token.word) ∧ Derives .iff w f m

/-- The lexer has one answer, so whatever a text writes is derived from one row of tokens. -/
theorem Writes.same_row {s : String} {f g : Formula} {m n : Nat} (hf : Writes s f m) (hg : Writes s g n) :
    ∃ w, Derives .iff w f m ∧ Derives .iff w g n := by
  obtain ⟨w, ⟨ts, hts, hw⟩, hd⟩ := hf
  obtain ⟨v, ⟨us, hus, hv⟩, hd'⟩ := hg
  cases hts.symm.trans hus
  have hwv : v.map Token.word = w.map Token.word := List.append_inj_left' (hv.symm.trans hw) rfl
  exact ⟨v, hd.congr hwv, hd'⟩

theorem Writes.unique {s : String} {f g : Formula} {m n : Nat} (hf : Writes s f m) (hg : Writes s g n) :
    f = g := by
  obtain ⟨w, hd, hd'⟩ := hf.same_row hg
  exact hd.unique hd'

theorem Formula.read_eq_ok_iff {s : String} {f : Formula} :
    read s = .ok f ↔ ∃ m ≤ nestingLimit, Writes s f m := by
  constructor
  · intro h
    unfold read at h
    split at h
    · rename_i ts hts
      obtain ⟨w, rfl, hw⟩ := Token.scan_shape s.toList hts
      obtain ⟨m, hm, hd⟩ := (parse_eq_ok_iff (fun t ht => (hw t ht).1) rfl f).1 h
      exact ⟨m, hm, w, ⟨_, hts, by rw [List.map_append]; rfl⟩, hd⟩
    · cases h
  · rintro ⟨m, hm, w, ⟨ts, hts, hw⟩, hd⟩
    obtain ⟨v, es, rfl, hv, he⟩ := List.map_eq_append_iff.1 hw
    obtain ⟨e, rfl, hek⟩ := List.map_eq_singleton_iff.1 he
    unfold read tokenize
    rw [hts]
    exact parse_of_derives (hd.congr hv) hm (congrArg Prod.fst hek)

theorem Formula.writes_of_read {s : String} {f : Formula} (h : read s = .ok f) : ∃ m, Writes s f m := by
  obtain ⟨m, -, hm⟩ := read_eq_ok_iff.1 h
  exact ⟨m, hm⟩

/-! ## Names -/

/-- The variables of the formula are names that the lexer reads. -/
def Formula.Named : Formula → Prop
  | var n => IsName n
  | top => True
  | bottom => True
  | neg a => a.Named
  | binary _ a b => a.Named ∧ b.Named

theorem Derives.named {l : Level} {w : List Token} {f : Formula} {m : Nat} (h : Derives l w f m)
    (hw : ∀ t ∈ w, t.kind = .identifier → IsName t.text) : f.Named := by
  induction h with
  | name ht => exact hw _ (by simp) ht
  | top => trivial
  | bottom => trivial
  | group _ _ _ ih => exact ih fun t ht => hw t (by simp [ht])
  | neg _ _ ih => exact ih fun t ht => hw t (by simp [ht])
  | binary _ _ _ ihu ihv => exact ⟨ihu fun t ht => hw t (by simp [ht]), ihv fun t ht => hw t (by simp [ht])⟩
  | tighter _ _ ih => exact ih hw

theorem Writes.named {s : String} {f : Formula} {m : Nat} (h : Writes s f m) : f.Named := by
  obtain ⟨w, ⟨ts, hts, hw⟩, hd⟩ := h
  obtain ⟨v, rfl, hv⟩ := Token.scan_shape s.toList hts
  rw [List.map_append, List.map_singleton] at hw
  exact (hd.congr (List.append_inj_left' hw rfl)).named fun t ht => (hv t ht).2

/-! ## Texts put together -/

/-- The text writes the formula at a level: that level derives its tokens with that tree. -/
def WritesAt (l : Level) (s : String) (f : Formula) (m : Nat) : Prop :=
  ∃ w : List Token, Lexes s.toList (w.map Token.word) ∧ Derives l w f m

namespace WritesAt

variable {k l : Level} {s t : String} {f g : Formula} {m n : Nat}

theorem loosen (h : WritesAt l s f m) (hk : k.strength ≤ l.strength) : WritesAt k s f m := by
  obtain ⟨w, hw, hd⟩ := h
  exact ⟨w, hw, hd.loosen hk⟩

theorem writes (h : WritesAt l s f m) : Writes s f m := h.loosen (Level.iff_le l)

theorem name {x : String} (hx : IsName x) : WritesAt .atom x (.var x) 0 :=
  ⟨[⟨.identifier, x, 0⟩], Token.lexes_name hx, .name rfl⟩

theorem top : WritesAt .atom "T" .top 0 := ⟨[⟨.constant true, "T", 0⟩], ⟨_, rfl, rfl⟩, .top rfl⟩

theorem bottom : WritesAt .atom "F" .bottom 0 := ⟨[⟨.constant false, "F", 0⟩], ⟨_, rfl, rfl⟩, .bottom rfl⟩

/-- In parentheses a text may stand at every level. -/
theorem group (h : Writes s f m) : WritesAt l ("(" ++ s ++ ")") f (m + 1) := by
  obtain ⟨w, hw, hd⟩ := h
  have hgroup : WritesAt .atom ("(" ++ s ++ ")") f (m + 1) := by
    refine ⟨⟨.leftParen, "(", 0⟩ :: (w ++ [⟨.rightParen, ")", 0⟩]), ?_, .group rfl rfl hd⟩
    simpa [String.toList_append, Token.word] using hw.group
  exact hgroup.loosen (Level.le_atom l)

theorem neg (h : WritesAt .not s f m) : WritesAt .not ("~" ++ s) (.neg f) (m + 1) := by
  obtain ⟨w, hw, hd⟩ := h
  refine ⟨⟨.negation, "~", 0⟩ :: w, ?_, .neg rfl hd⟩
  simpa [String.toList_append, Token.word] using hw.negation

theorem binary {op : Connective} (hf : WritesAt op.leftLevel s f m) (hg : WritesAt op.rightLevel t g n) :
    WritesAt op.level (s ++ " " ++ op.text ++ " " ++ t) (.binary op f g) (max m (n + op.opened)) := by
  obtain ⟨u, hu, hdu⟩ := hf
  obtain ⟨v, hv, hdv⟩ := hg
  refine ⟨u ++ ⟨.operator op, op.text, 0⟩ :: v, ?_, .binary rfl hdu hdv⟩
  simpa [String.toList_append, Token.word] using hu.connective op hv

end WritesAt

theorem Writes.combined {s t : String} {f g : Formula} {m n : Nat} (hf : Writes s f m) (hg : Writes t g n)
    (op : Connective) :
    Writes (Proof.combined s op t) (.binary op f g) (max (m + 1) (n + 1 + op.opened)) := by
  have htext : Proof.combined s op t = "(" ++ s ++ ")" ++ " " ++ op.text ++ " " ++ ("(" ++ t ++ ")") := by
    apply String.toList_inj.1
    simp [Proof.combined, String.toList_append]
  rw [htext]
  exact (WritesAt.binary (.group hf) (.group hg)).writes

/-! ## Display text -/

namespace Connective

/-- A left operand stands in parentheses when its level may not be there. -/
theorem wrapsLeft_eq (op : Connective) (n : Nat) : op.wrapsLeft n = decide (n < op.leftLevel.strength) := by
  cases op <;> simp only [wrapsLeft, groupsRight, Bool.false_eq_true, if_false, if_true, decide_eq_decide]
  · exact Iff.rfl
  · exact Iff.rfl
  · exact Nat.lt_succ_iff.symm
  · exact Iff.rfl

theorem wrapsRight_eq (op : Connective) (n : Nat) : op.wrapsRight n = decide (n < op.rightLevel.strength) := by
  cases op <;> simp only [wrapsRight, groupsRight, Bool.false_eq_true, if_false, if_true, decide_eq_decide]
  · exact Nat.lt_succ_iff.symm
  · exact Nat.lt_succ_iff.symm
  · exact Iff.rfl
  · exact Nat.lt_succ_iff.symm

end Connective

namespace Formula

/-- The tightest level that derives the display text of the formula. -/
def level : Formula → Level
  | neg _ => .not
  | binary op _ _ => op.level
  | _ => .atom

theorem level_strength (f : Formula) : f.level.strength = f.strength := by
  cases f with
  | binary op a b => exact op.level_strength
  | _ => rfl

def wrapNesting (wrap : Bool) (n : Nat) : Nat :=
  if wrap then n + 1 else n

/-- The largest number of levels of nesting in the display text of the formula. -/
def displayNesting : Formula → Nat
  | neg a => wrapNesting (a.strength < negStrength) a.displayNesting + 1
  | binary op a b =>
    max (wrapNesting (op.wrapsLeft a.strength) a.displayNesting)
      (wrapNesting (op.wrapsRight b.strength) b.displayNesting + op.opened)
  | _ => 0

/-- A text at the level of its formula, in parentheses where the level it is put under asks for them. -/
theorem writesAt_wrapIf {k : Level} {s : String} {f : Formula} {m : Nat} (h : WritesAt f.level s f m)
    (wrap : Bool) (hk : wrap = false → k.strength ≤ f.strength) :
    WritesAt k (wrapIf wrap s) f (wrapNesting wrap m) := by
  cases wrap with
  | false => exact h.loosen (by rw [level_strength]; exact hk rfl)
  | true => exact .group h.writes

/-- The display text of a formula of names writes it at the level of its outermost operation. -/
theorem display_writesAt : ∀ {f : Formula}, f.Named → WritesAt f.level f.display f f.displayNesting
  | var _, hn => .name hn
  | top, _ => .top
  | bottom, _ => .bottom
  | neg a, hn => by
    refine .neg (writesAt_wrapIf (display_writesAt (f := a) hn) (a.strength < negStrength) fun h => ?_)
    simpa [Level.strength] using h
  | binary op a b, hn => by
    refine .binary (writesAt_wrapIf (display_writesAt (f := a) hn.1) (op.wrapsLeft a.strength) fun h => ?_)
      (writesAt_wrapIf (display_writesAt (f := b) hn.2) (op.wrapsRight b.strength) fun h => ?_)
    · simpa [Connective.wrapsLeft_eq] using h
    · simpa [Connective.wrapsRight_eq] using h

theorem display_writes {f : Formula} (h : f.Named) : Writes f.display f f.displayNesting :=
  (display_writesAt h).writes

end Formula

end Deduction
