/-
The words of a text. Splitting at blanks distributes over a blank (`splitWords_append_blank`), as reading does, so
words with a space between each two of them are split into these words again (`words_joinWith`). Trimming takes the
blanks at both ends and nothing of a text that has none there (`trim_append`).
-/
import Deduction.Text.Blank
import Deduction.Text.Layout
import Mathlib.Data.List.Find
import Mathlib.Data.List.TakeWhile

namespace Deduction.Text

/-- A row of blanks. -/
def AllBlank (s : String) : Prop :=
  ∀ c ∈ s.toList, isBlank c = true

/-- A word: it has characters, and no blank among them. -/
structure Solid (s : String) : Prop where
  nonempty : s ≠ ""
  solid : ∀ c ∈ s.toList, isBlank c = false

/-- A text that has characters, and a blank at neither end. -/
structure Trimmed (s : String) : Prop where
  nonempty : s ≠ ""
  first : ∀ c ∈ s.toList.head?, isBlank c = false
  last : ∀ c ∈ s.toList.getLast?, isBlank c = false

instance (s : String) : Decidable (AllBlank s) :=
  decidable_of_iff (s.toList.all isBlank = true) List.all_eq_true

instance (s : String) : Decidable (Solid s) :=
  decidable_of_iff (s ≠ "" ∧ s.toList.any isBlank = false)
    ⟨fun ⟨hne, h⟩ => ⟨hne, by simpa using h⟩, fun ⟨hne, h⟩ => ⟨hne, by simpa using h⟩⟩

theorem any_eq_false_iff {p : Char → Bool} {o : Option Char} : o.any p = false ↔ ∀ c ∈ o, p c = false := by
  rcases o with _ | c
  · simp
  · simp

instance (s : String) : Decidable (Trimmed s) :=
  decidable_of_iff (s ≠ "" ∧ s.toList.head?.any isBlank = false ∧ s.toList.getLast?.any isBlank = false)
    ⟨fun ⟨hne, hfirst, hlast⟩ => ⟨hne, any_eq_false_iff.1 hfirst, any_eq_false_iff.1 hlast⟩,
      fun ⟨hne, hfirst, hlast⟩ => ⟨hne, any_eq_false_iff.2 hfirst, any_eq_false_iff.2 hlast⟩⟩

/-- A text is without blanks, or it is cut at its first one. -/
theorem solid_or_cut (cs : List Char) : (∀ c ∈ cs, isBlank c = false) ∨
    ∃ a w b, cs = a ++ w :: b ∧ (∀ c ∈ a, isBlank c = false) ∧ isBlank w = true := by
  rcases hfound : cs.find? isBlank with _ | w
  · rw [List.find?_eq_none] at hfound
    exact .inl fun c hc => by simpa using hfound c hc
  · obtain ⟨hw, a, b, hcut, ha⟩ := List.find?_eq_some_iff_append.1 hfound
    exact .inr ⟨a, w, b, hcut, fun c hc => by simpa using ha c hc, hw⟩

/-! ## Splitting -/

theorem splitWords_blank {c : Char} (hc : isBlank c = true) (cs : List Char) :
    splitWords (c :: cs) = splitWords cs := by
  rw [splitWords, if_pos hc]

/-- What begins with another character begins with a word of that character. -/
theorem splitWords_begin {c : Char} (hc : isBlank c = false) (cs : List Char) :
    ∃ w ws, splitWords (c :: cs) = (c :: w) :: ws := by
  rw [splitWords, if_neg (by simp [hc])]
  split
  · exact ⟨[], [], rfl⟩
  · split
    · exact ⟨[], _, rfl⟩
    · exact ⟨_, _, rfl⟩

theorem splitWords_blanks : ∀ {cs : List Char}, (∀ c ∈ cs, isBlank c = true) → splitWords cs = []
  | [], _ => rfl
  | c :: cs, h => by
    rw [splitWords_blank (h c List.mem_cons_self)]
    exact splitWords_blanks fun d hd => h d (List.mem_cons_of_mem c hd)

theorem splitWords_solid : ∀ {cs : List Char}, cs ≠ [] → (∀ c ∈ cs, isBlank c = false) → splitWords cs = [cs]
  | [], hne, _ => absurd rfl hne
  | [c], _, h => by simp [splitWords, h c]
  | c :: d :: cs, _, h => by
    have hc := h c List.mem_cons_self
    have hd := h d (List.mem_cons_of_mem c List.mem_cons_self)
    have htail := splitWords_solid (List.cons_ne_nil d cs) fun e he => h e (List.mem_cons_of_mem c he)
    rw [splitWords, if_neg (by simp [hc]), htail]
    simp [hd]

/-- The words of a text with a blank in it are those on its two sides. -/
theorem splitWords_append_blank {w : Char} (hw : isBlank w = true) (b : List Char) : ∀ a : List Char,
    splitWords (a ++ w :: b) = splitWords a ++ splitWords b
  | [] => splitWords_blank hw b
  | c :: a => by
    have ih := splitWords_append_blank hw b a
    cases hc : isBlank c with
    | true => rw [List.cons_append, splitWords_blank hc, splitWords_blank hc, ih]
    | false =>
      rw [List.cons_append, splitWords, if_neg (by simp [hc]), splitWords, if_neg (by simp [hc]), ih]
      rcases a with _ | ⟨d, a⟩
      · -- the blank ends the word of the one character
        rw [List.nil_append, splitWords, List.nil_append]
        rcases splitWords b with _ | ⟨v, vs⟩
        · rfl
        · simp [hw]
      · cases hd : isBlank d with
        | true =>
          rcases splitWords (d :: a) with _ | ⟨u, us⟩
          · rcases splitWords b with _ | ⟨v, vs⟩
            · rfl
            · simp [hd]
          · simp [hd]
        | false =>
          obtain ⟨u, us, hu⟩ := splitWords_begin hd a
          rw [hu]
          simp [hd]

theorem splitWords_append_blanks (a : List Char) : ∀ {gap : List Char}, (∀ c ∈ gap, isBlank c = true) →
    splitWords (a ++ gap) = splitWords a
  | [], _ => by rw [List.append_nil]
  | c :: gap, h => by
    rw [splitWords_append_blank (h c List.mem_cons_self),
      splitWords_blanks fun d hd => h d (List.mem_cons_of_mem c hd), List.append_nil]

theorem splitWords_blanks_append : ∀ {gap : List Char}, (∀ c ∈ gap, isBlank c = true) → ∀ b : List Char,
    splitWords (gap ++ b) = splitWords b
  | [], _, _ => rfl
  | c :: gap, h, b => by
    rw [List.cons_append, splitWords_blank (h c List.mem_cons_self)]
    exact splitWords_blanks_append (fun d hd => h d (List.mem_cons_of_mem c hd)) b

/-- The words of a text with blanks in it are those on the two sides of the blanks. -/
theorem splitWords_gap (a b : List Char) {gap : List Char} (hne : gap ≠ []) (hgap : ∀ c ∈ gap, isBlank c = true) :
    splitWords (a ++ gap ++ b) = splitWords a ++ splitWords b := by
  rcases gap with _ | ⟨c, gap⟩
  · exact absurd rfl hne
  · rw [List.append_assoc, List.cons_append, splitWords_append_blank (hgap c List.mem_cons_self),
      splitWords_blanks_append fun d hd => hgap d (List.mem_cons_of_mem c hd)]

/-! ## Joining -/

theorem joinWith_cons (separator s : String) {ts : List String} (h : ts ≠ []) :
    joinWith separator (s :: ts) = s ++ separator ++ joinWith separator ts := by
  rcases ts with _ | ⟨t, ts⟩
  · exact absurd rfl h
  · rw [joinWith]

theorem joinWith_ne_empty (separator : String) {s : String} (hs : s ≠ "") (ts : List String) :
    joinWith separator (s :: ts) ≠ "" := by
  rcases ts with _ | ⟨t, ts⟩
  · exact hs
  · rw [joinWith_cons separator s (List.cons_ne_nil t ts)]
    simp [hs]

theorem mem_joinWith {separator : String} {c : Char} : ∀ {ts : List String},
    c ∈ (joinWith separator ts).toList → c ∈ separator.toList ∨ ∃ t ∈ ts, c ∈ t.toList
  | [], h => by simp [joinWith] at h
  | [t], h => .inr ⟨t, List.mem_cons_self, h⟩
  | s :: t :: ts, h => by
    rw [joinWith_cons separator s (List.cons_ne_nil t ts), String.toList_append, String.toList_append,
      List.mem_append, List.mem_append] at h
    rcases h with (h | h) | h
    · exact .inr ⟨s, List.mem_cons_self, h⟩
    · exact .inl h
    · rcases mem_joinWith h with h | ⟨u, hu, h⟩
      · exact .inl h
      · exact .inr ⟨u, List.mem_cons_of_mem s hu, h⟩

/-- Words with a space between each two of them are split into these words again. -/
theorem words_joinWith : ∀ {ws : List String}, (∀ w ∈ ws, Solid w) → words (joinWith " " ws) = ws
  | [], _ => rfl
  | [w], h => by
    obtain ⟨hne, hsolid⟩ := h w List.mem_cons_self
    rw [joinWith, words, splitWords_solid (by simpa using hne) hsolid]
    simp
  | w :: v :: ws, h => by
    obtain ⟨hne, hsolid⟩ := h w List.mem_cons_self
    have htail := words_joinWith fun u hu => h u (List.mem_cons_of_mem w hu)
    have htext : (joinWith " " (w :: v :: ws)).toList = w.toList ++ ' ' :: (joinWith " " (v :: ws)).toList := by
      rw [joinWith_cons " " w (List.cons_ne_nil v ws)]
      simp
    rw [words, htext, splitWords_append_blank (by decide), splitWords_solid (by simpa using hne) hsolid,
      List.map_append]
    rw [words] at htail
    rw [htail]
    simp

/-! ## Trimming -/

theorem trimOff_append {p : Char → Bool} {gap cs : List Char} (hgap : ∀ c ∈ gap, p c = true)
    (hfirst : ∀ c ∈ cs.head?, p c = false) (hlast : ∀ c ∈ cs.getLast?, p c = false) :
    trimOff p (gap ++ cs) = cs := by
  have hkept : ∀ ds : List Char, (∀ c ∈ ds.head?, p c = false) → ds.dropWhile p = ds := by
    intro ds hds
    rcases ds with _ | ⟨d, ds⟩
    · rfl
    · exact List.dropWhile_cons_of_neg (by simp [hds d rfl])
  rw [trimOff, List.dropWhile_append_of_pos hgap, hkept cs hfirst,
    hkept cs.reverse (by rwa [List.head?_reverse]), List.reverse_reverse]

theorem trim_append {gap s : String} (hgap : AllBlank gap) (hs : Trimmed s) : trim (gap ++ s) = s := by
  rw [trim, String.toList_append, trimOff_append hgap hs.first hs.last, String.ofList_toList]

end Deduction.Text
