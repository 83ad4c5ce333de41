/-
Reading back what was printed. The display text of a formula has no more levels of nesting than any text that
writes the formula (`Derives.displayNesting_le`), so the display text of a formula that was read is read as
that formula again (`read_display_of_read`). Canonical text has a level for each pair of its parentheses, also
where the text that was read had none, so it is read back only while its own levels are within the limit
(`read_canonical_of_read`, `exists_canonical_refused`). What a tree alone says of both texts, read or not, is
in `read_printed`.
-/
import Deduction.Proofs.Formula.Overflow
import Mathlib.Logic.Function.Iterate

namespace Deduction

/-! ## Levels of display text -/

namespace Formula

theorem le_wrapNesting (wrap : Bool) (n : Nat) : n ≤ wrapNesting wrap n := by
  unfold wrapNesting
  split <;> omega

theorem wrapNesting_le (wrap : Bool) (n : Nat) : wrapNesting wrap n ≤ n + 1 := by
  unfold wrapNesting
  split <;> omega

theorem wrapNesting_mono {wrap wrap' : Bool} (h : wrap = true → wrap' = true) (n : Nat) :
    wrapNesting wrap n ≤ wrapNesting wrap' n := by
  cases wrap with
  | false => exact le_wrapNesting wrap' n
  | true => rw [h rfl]

end Formula

/-- The display text, in parentheses where a level asks for them, has no more levels of nesting than a row
that the level derives: the row may have parentheses that nothing asks for, but none can be missing. -/
theorem Derives.displayNesting_le {l : Level} {w : List Token} {f : Formula} {m : Nat} (h : Derives l w f m) :
    Formula.wrapNesting (f.strength < l.strength) f.displayNesting ≤ m := by
  induction h with
  | name => exact Nat.le_refl 0
  | top => exact Nat.le_refl 0
  | bottom => exact Nat.le_refl 0
  | @group lp rp w f m _ _ _ ih =>
    calc Formula.wrapNesting (f.strength < Level.atom.strength) f.displayNesting
        ≤ f.displayNesting + 1 := Formula.wrapNesting_le _ _
      _ ≤ m + 1 := Nat.succ_le_succ (Nat.le_trans (Formula.le_wrapNesting _ _) ih)
  | neg _ _ ih => exact Nat.succ_le_succ ih
  | @binary t op u v a b m n _ _ _ ihu ihv =>
    have hnone : decide ((Formula.binary op a b).strength < op.level.strength) = false := by
      rw [Connective.level_strength]
      exact decide_eq_false (Nat.lt_irrefl op.strength)
    rw [hnone]
    simp only [Formula.wrapNesting, Bool.false_eq_true, if_false, Formula.displayNesting]
    rw [op.wrapsLeft_eq, op.wrapsRight_eq]
    unfold Formula.wrapNesting at ihu ihv
    omega
  | @tighter k l w f m hkl _ ih =>
    refine Nat.le_trans (Formula.wrapNesting_mono (fun hk => ?_) _) ih
    exact decide_eq_true (Nat.lt_trans (of_decide_eq_true hk) hkl)

theorem Writes.displayNesting_le {s : String} {f : Formula} {m : Nat} (h : Writes s f m) :
    f.displayNesting ≤ m := by
  obtain ⟨w, -, hd⟩ := h
  exact Nat.le_trans (Formula.le_wrapNesting _ _) hd.displayNesting_le

/-! ## Readable formulas -/

namespace Formula

/-- The variables are names, and the display text is within the limit on nesting. -/
structure Readable (f : Formula) : Prop where
  named : f.Named
  nesting_le : f.displayNesting ≤ nestingLimit

namespace Readable

variable {f a b : Formula} {op : Connective}

theorem of_read {s : String} (h : read s = .ok f) : f.Readable := by
  obtain ⟨m, hm, hw⟩ := read_eq_ok_iff.1 h
  exact ⟨hw.named, Nat.le_trans hw.displayNesting_le hm⟩

theorem read_display (h : f.Readable) : read f.display = .ok f :=
  (display_writes h.named).read_of_le h.nesting_le

theorem operand (h : (neg a).Readable) : a.Readable := by
  refine ⟨h.named, ?_⟩
  calc a.displayNesting ≤ wrapNesting (a.strength < negStrength) a.displayNesting := le_wrapNesting _ _
    _ ≤ (neg a).displayNesting := Nat.le_succ _
    _ ≤ nestingLimit := h.nesting_le

theorem left (h : (binary op a b).Readable) : a.Readable := by
  refine ⟨h.named.1, ?_⟩
  calc a.displayNesting ≤ wrapNesting (op.wrapsLeft a.strength) a.displayNesting := le_wrapNesting _ _
    _ ≤ (binary op a b).displayNesting := Nat.le_max_left _ _
    _ ≤ nestingLimit := h.nesting_le

theorem right (h : (binary op a b).Readable) : b.Readable := by
  refine ⟨h.named.2, ?_⟩
  calc b.displayNesting ≤ wrapNesting (op.wrapsRight b.strength) b.displayNesting := le_wrapNesting _ _
    _ ≤ wrapNesting (op.wrapsRight b.strength) b.displayNesting + op.opened := Nat.le_add_right _ _
    _ ≤ (binary op a b).displayNesting := Nat.le_max_right _ _
    _ ≤ nestingLimit := h.nesting_le

end Readable

/-- The readable formulas are those that some text is read as. -/
theorem readable_iff {f : Formula} : f.Readable ↔ ∃ s, read s = .ok f :=
  ⟨fun h => ⟨f.display, h.read_display⟩, fun ⟨_, h⟩ => .of_read h⟩

section Walks

variable [CallStack] {α : Type} {f : Formula} {g : Formula → α} {a : α}

theorem walk_ok (h : f.walk g = .ok a) : a = g f := by
  unfold walk at h
  split at h
  · cases h; rfl
  · cases h

theorem height_le_of_walk (h : f.walk g = .ok a) : f.height ≤ CallStack.levels := by
  unfold walk at h
  split at h
  · assumption
  · cases h

theorem walk_of_le (h : f.height ≤ CallStack.levels) (g : Formula → α) : f.walk g = .ok (g f) :=
  if_pos h

end Walks

end Formula

/-- The display text of a formula that was read is read as that formula, and has no more levels of nesting
than the text that the formula was read from. -/
theorem read_display_of_read [CallStack] (t d : String) (f : Formula) (h : Formula.read t = .ok f)
    (hd : f.walk Formula.display = .ok d) :
    Formula.read d = .ok f ∧ ∃ n, Writes d f n ∧ ∀ m, Writes t f m → n ≤ m := by
  obtain rfl := Formula.walk_ok hd
  have hf := Formula.Readable.of_read h
  exact ⟨hf.read_display, f.displayNesting, Formula.display_writes hf.named, fun m hm => hm.displayNesting_le⟩

attribute [local instance] CallStack.usual

/-- A chain of implications to the left keeps the parentheses that it needs and loses the others. -/
theorem read_display_of_read_chain :
    ∃ f, Formula.read "((p -> (q)) -> r) -> (~(s) -> T)" = .ok f ∧
      f.walk Formula.display = .ok "((p -> q) -> r) -> ~s -> T" ∧
      Formula.read "((p -> q) -> r) -> ~s -> T" = .ok f :=
  ⟨_, rfl, by decide +kernel,
    (read_display_of_read "((p -> (q)) -> r) -> (~(s) -> T)" "((p -> q) -> r) -> ~s -> T" _ rfl
      (by decide +kernel)).1⟩

/-! ## Canonical text -/

namespace Formula

/-- The largest number of levels of nesting in the canonical text of the formula. -/
def canonicalNesting : Formula → Nat
  | neg a => a.canonicalNesting + 2
  | binary op a b => max a.canonicalNesting (b.canonicalNesting + op.opened) + 1
  | _ => 0

/-- The canonical text of a formula of names writes it, and may stand at every level. -/
theorem canonical_writesAt : ∀ {f : Formula} {l : Level}, f.Named → WritesAt l f.canonical f f.canonicalNesting
  | var _, l, hn => WritesAt.loosen (.name hn) (Level.le_atom l)
  | top, l, _ => WritesAt.top.loosen (Level.le_atom l)
  | bottom, l, _ => WritesAt.bottom.loosen (Level.le_atom l)
  | neg a, _, hn => by
    have htext : (neg a).canonical = "(" ++ ("~" ++ a.canonical) ++ ")" := by
      apply String.toList_inj.1
      simp [canonical, String.toList_append]
    rw [htext]
    exact .group (WritesAt.neg (canonical_writesAt (f := a) hn)).writes
  | binary op a b, _, hn => by
    have htext : (binary op a b).canonical =
        "(" ++ (a.canonical ++ " " ++ op.text ++ " " ++ b.canonical) ++ ")" := by
      apply String.toList_inj.1
      simp [canonical, String.toList_append]
    rw [htext]
    exact .group
      (WritesAt.binary (canonical_writesAt (f := a) hn.1) (canonical_writesAt (f := b) hn.2)).writes

theorem canonical_writes {f : Formula} (h : f.Named) : Writes f.canonical f f.canonicalNesting :=
  canonical_writesAt h

end Formula

/-- The canonical text of a formula that was read is read as that formula exactly as long as its own levels of
nesting are within the limit, and is refused as nested too deeply past it. -/
theorem read_canonical_of_read [CallStack] (t c : String) (f : Formula) (h : Formula.read t = .ok f)
    (hc : f.walk Formula.canonical = .ok c) :
    (Formula.read c = .ok f ↔ f.canonicalNesting ≤ nestingLimit) ∧
      (nestingLimit < f.canonicalNesting →
        ∃ tok, Formula.read c = .error (.nestedTooDeep tok nestingLimit)) := by
  obtain rfl := Formula.walk_ok hc
  have hw := Formula.canonical_writes (Formula.Readable.of_read h).named
  exact ⟨hw.read_eq_ok_iff, hw.read_of_lt⟩

/-- A negation is put in parentheses, and read back with them. -/
theorem read_canonical_of_read_negation :
    ∃ f, Formula.read "~p -> q" = .ok f ∧ f.walk Formula.canonical = .ok "((~p) -> q)" ∧
      f.canonicalNesting ≤ nestingLimit ∧ Formula.read "((~p) -> q)" = .ok f :=
  ⟨_, rfl, by decide +kernel, by decide +kernel,
    (read_canonical_of_read "~p -> q" "((~p) -> q)" _ rfl (by decide +kernel)).1.2 (by decide +kernel)⟩

/-- A text of negations that is read, while the canonical text of its formula is not: each negation opens two
levels there, where the text opened one. -/
theorem exists_canonical_refused :
    ∃ f c tok, Formula.read (String.ofList (List.replicate 51 '~' ++ ['p'])) = .ok f ∧
      f.walk Formula.canonical = .ok c ∧ Formula.read c = .error (.nestedTooDeep tok nestingLimit) := by
  let f := Formula.neg^[51] (.var "p")
  have hp : (Formula.var "p").Named := (Formula.Readable.of_read (s := "p") rfl).named
  have hneg : ∀ n, (Formula.neg^[n] (.var "p")).Named := Function.Iterate.rec Formula.Named hp fun _ h => h
  -- the text is the display text of the formula
  have htext : String.ofList (List.replicate 51 '~' ++ ['p']) = f.display := by decide +kernel
  have hread : Formula.read f.display = .ok f := Formula.Readable.read_display ⟨hneg 51, by decide +kernel⟩
  have hlevels : nestingLimit < f.canonicalNesting := by decide +kernel
  obtain ⟨tok, htok⟩ := (Formula.canonical_writes (hneg 51)).read_of_lt hlevels
  exact ⟨f, f.canonical, tok, htext ▸ hread, by decide +kernel, htok⟩

/-! ## Every tree -/

/-- Whether or not its formula was ever read, a printed text of a formula of names is read back as the formula
when its levels of nesting are within the limit, and is refused as nested too deeply when they are not: it is
never refused for another reason and never read as another formula. -/
theorem read_printed [CallStack] (f : Formula) (h : f.Named) :
    (∀ c, f.walk Formula.canonical = .ok c →
      (f.canonicalNesting ≤ nestingLimit → Formula.read c = .ok f) ∧
      (nestingLimit < f.canonicalNesting → ∃ t, Formula.read c = .error (.nestedTooDeep t nestingLimit))) ∧
    (∀ d, f.walk Formula.display = .ok d →
      (f.displayNesting ≤ nestingLimit → Formula.read d = .ok f) ∧
      (nestingLimit < f.displayNesting → ∃ t, Formula.read d = .error (.nestedTooDeep t nestingLimit))) := by
  constructor
  · intro c hc
    obtain rfl := Formula.walk_ok hc
    exact ⟨(Formula.canonical_writes h).read_of_le, (Formula.canonical_writes h).read_of_lt⟩
  · intro d hd
    obtain rfl := Formula.walk_ok hd
    exact ⟨(Formula.display_writes h).read_of_le, (Formula.display_writes h).read_of_lt⟩

/-- A chain of sixty implications, of which the canonical text is refused and the display text read back. -/
theorem read_printed_implications :
    ∃ f : Formula, f.Named ∧ f.canonicalNesting = 120 ∧ f.displayNesting = 60 ∧
      (∃ t, Formula.read f.canonical = .error (.nestedTooDeep t nestingLimit)) ∧
      Formula.read f.display = .ok f := by
  have hp : (Formula.var "p").Named := (Formula.Readable.of_read (s := "p") rfl).named
  have hchain : ∀ n, ((Formula.binary .implies (.var "p"))^[n] (.var "p")).Named :=
    Function.Iterate.rec Formula.Named hp fun _ h => ⟨hp, h⟩
  obtain ⟨hcanonical, hdisplay⟩ := read_printed _ (hchain 60)
  have hwalk := Formula.walk_of_le (α := String)
    (show ((Formula.binary .implies (.var "p"))^[60] (.var "p")).height ≤ CallStack.levels by decide +kernel)
  exact ⟨_, hchain 60, by decide +kernel, by decide +kernel,
    (hcanonical _ (hwalk _)).2 (by decide +kernel), (hdisplay _ (hwalk _)).1 (by decide +kernel)⟩

end Deduction
