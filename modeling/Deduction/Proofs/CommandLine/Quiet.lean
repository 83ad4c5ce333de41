/-
What the option to be quiet changes: it hides lines and does nothing else. Two command lines that differ only in it
have the same options but for that one (`Options.read_unhushed`), so the same moves and deletions are made. Made
quietly or not, they lead to the same proof, and what is told of them quietly is what is told otherwise with lines
left out (`makeMoves_hushed`, `makeDeletions_hushed`). The block that shows the proof is never among these lines:
`LeavesOut` keeps it apart from the lines in front of it and behind it. So the answers differ in lines that are left
out, and in nothing else (`answer_quiet`).
-/
import Deduction.CommandLine.Run
import Mathlib.Data.List.Basic

namespace Deduction.CommandLine

/-! ## Words and options -/

/-- Whether a word is the option to be quiet. -/
def Word.hushes : Word → Bool
  | switch (.flag .quiet) none => true
  | _ => false

/-- The words without those that are the option to be quiet, by its name or by the beginning of its name. -/
def unhushedWords (words : List String) : List String :=
  words.filter fun w => !(Word.classify w).toOption.any Word.hushes

example : unhushedWords ["--goal", "p", "--qui", "--q=", "--quiet"] = ["--goal", "p", "--q="] := by
  decide

theorem unhushedWords_cons {w : String} {word : Word} (h : Word.classify w = .ok word) (words : List String) :
    unhushedWords (w :: words) = if word.hushes then unhushedWords words else w :: unhushedWords words := by
  unfold unhushedWords
  rw [List.filter_cons, h]
  cases hhushes : word.hushes <;> simp [Except.toOption, hhushes]

/-- No word is taken for another thing when the words that are the option to be quiet are left out. -/
theorem classifyWords_unhushed {words rest : List String} {classified : List (String × Word)}
    (h : classifyWords words = .ok (classified, rest)) :
    classifyWords (unhushedWords words) = .ok (classified.filter (!·.2.hushes), unhushedWords rest) := by
  fun_induction classifyWords words generalizing classified rest with
  | case1 =>
    cases h
    rfl
  | case2 ws =>
    cases h
    rfl
  | case3 | case4 => cases h
  | case5 w ws hw word hword classified' rest' hws ih =>
    cases h
    rw [unhushedWords_cons hword, List.filter_cons]
    cases hhushes : word.hushes with
    | true => exact ih hws
    | false =>
      show classifyWords (w :: unhushedWords ws) = _
      rw [classifyWords, if_neg hw, hword]
      dsimp only
      rw [ih hws]
      rfl

namespace Options

/-- The options without the one to be quiet. -/
def unhushed (o : Options) : Options :=
  { o with quiet := false }

theorem unhushed_setFlag_of_ne {flag : Flag} (h : flag ≠ .quiet) (o : Options) :
    (o.setFlag flag).unhushed = o.unhushed.setFlag flag := by
  cases flag with
  | quiet => exact absurd rfl h
  | rules | kbs | goals | examples => rfl

theorem setValue_unhushed {o o' : Options} {key : Key} {value : String} (h : o.setValue key value = .ok o') :
    o.unhushed.setValue key value = .ok o'.unhushed := by
  unfold setValue at h ⊢
  cases key with
  | formula | goal | apply =>
    cases h
    rfl
  | maxVars | delete | kb =>
    dsimp only at h ⊢
    split at h
    · cases h
      rfl
    · cases h

/-- Where there is no fault in the words, those without the option to be quiet are read as the same options but for
that one. -/
theorem readWords_unhushed {words : List (String × Word)} {o : Options} {left : List String}
    {r : Except Halt (Options × List String)} (h : readWords o left words = r) (hr : ∀ e, r ≠ .error (.fault e)) :
    readWords o.unhushed left (words.filter (!·.2.hushes)) = r.map fun (o', left') => (o'.unhushed, left') := by
  fun_induction readWords o left words with
  | case1 | case4 =>
    subst h
    rfl
  | case2 o left w ws ih | case3 o left w ws ih => exact ih h
  | case5 | case7 | case9 | case11 | case12 => exact absurd h.symm (hr _)
  | case6 o left w ws flag ih =>
    by_cases hflag : flag = .quiet
    · subst hflag
      exact ih h
    · have hkept : (Word.switch (.flag flag) none).hushes = false := by
        cases flag <;> first | rfl | exact absurd rfl hflag
      rw [List.filter_cons_of_pos (by simp [hkept]), readWords, ← unhushed_setFlag_of_ne hflag]
      exact ih h
  | case8 o left w ws key v o₁ hset ih =>
    rw [List.filter_cons_of_pos rfl, readWords, setValue_unhushed hset]
    exact ih h
  | case10 o left w key v rest o₁ hset ih =>
    rw [List.filter_cons_of_pos rfl, List.filter_cons_of_pos rfl, readWords, setValue_unhushed hset]
    exact ih h

/-- What is read without the option to be quiet is a call for help where it was one, and otherwise the same options
but for that one. -/
theorem read_unhushed {words : List String} {r : Except Halt Options} (h : read words = r)
    (hr : ∀ e, r ≠ .error (.fault e)) : read (unhushedWords words) = r.map unhushed := by
  subst h
  unfold read at hr ⊢
  split at hr
  · exact absurd rfl (hr _)
  · rename_i classified rest hwords
    rw [classifyWords_unhushed hwords]
    dsimp only
    have hempty : readWords empty [] (classified.filter (!·.2.hushes)) =
        (readWords empty [] classified).map fun (o, left) => (o.unhushed, left) := by
      refine readWords_unhushed (o := empty) rfl fun e he => ?_
      rw [he] at hr
      exact absurd rfl (hr e)
    rw [hempty]
    generalize readWords empty [] classified = outcome at hr ⊢
    rcases outcome with halt | ⟨o, left⟩
    · rfl
    · rcases hleft : left ++ rest with _ | ⟨w, ws⟩
      · obtain ⟨rfl, rfl⟩ := List.append_eq_nil_iff.1 hleft
        by_cases hneeds : ((!o.moves.isEmpty || !o.deletions.isEmpty) && o.goal.isNone) = true
        · exact (hr .goalNeeded (if_pos hneeds)).elim
        · dsimp only [Except.map, List.append_nil]
          rw [if_neg hneeds]
          exact if_neg hneeds
      · dsimp only at hr
        rw [hleft] at hr
        exact absurd rfl (hr _)

end Options

/-! ## Lines that are left out -/

/-- The lines `q` are those of `l` with some left out, but none of the block, which stands in both. -/
def LeavesOut (block q l : List String) : Prop :=
  ∃ front front' back back' : List String, q = front ++ block ++ back ∧ l = front' ++ block ++ back' ∧
    front.Sublist front' ∧ back.Sublist back'

namespace LeavesOut

theorem sublist {block q l : List String} (h : LeavesOut block q l) : q.Sublist l := by
  obtain ⟨front, front', back, back', rfl, rfl, hfront, hback⟩ := h
  exact (hfront.append (.refl block)).append hback

theorem refl (l : List String) : LeavesOut [] l l :=
  ⟨l, l, [], [], by simp, by simp, .refl l, .refl []⟩

theorem behind {block q l : List String} (xs : List String) (h : LeavesOut block q l) :
    LeavesOut block (xs ++ q) (xs ++ l) := by
  obtain ⟨front, front', back, back', rfl, rfl, hfront, hback⟩ := h
  exact ⟨xs ++ front, xs ++ front', back, back', by simp, by simp, (List.Sublist.refl xs).append hfront, hback⟩

end LeavesOut

theorem hidden_sublist (hidden : Bool) (xs : List String) :
    (if hidden then [] else xs).Sublist (if false then [] else xs) := by
  cases hidden with
  | true => exact List.nil_sublist _
  | false => exact .refl _

/-! ## Moves and deletions -/

theorem makeDeletions_hushed (quiet : Bool) (ids : List Int) (p : Proof) :
    (makeDeletions quiet p ids).2 = (makeDeletions false p ids).2 ∧
      (makeDeletions quiet p ids).1.Sublist (makeDeletions false p ids).1 := by
  induction ids generalizing p with
  | nil => exact ⟨rfl, .refl []⟩
  | cons id ids ih =>
    unfold makeDeletions
    rcases p.delete id with blocker | p'
    · exact ⟨(ih p).1, (ih p).2.cons_cons _⟩
    · exact ⟨(ih p').1, (hidden_sublist quiet _).append (ih p').2⟩

section Shown

variable [CallStack]

/-- Moves lead to the same proof, made quietly or not, and quietly no more is told of them. -/
theorem makeMoves_hushed (quiet : Bool) (moves : List Move) (p : Proof) :
    (makeMoves quiet p moves).2 = (makeMoves false p moves).2 ∧
      (makeMoves quiet p moves).1.Sublist (makeMoves false p moves).1 := by
  induction moves generalizing p with
  | nil => exact ⟨rfl, .refl []⟩
  | cons m ms ih =>
    have hnotes := hidden_sublist quiet (p.extendNotes m.rule m.ids m.input)
    unfold makeMoves
    rcases p.extend m.rule.id m.ids m.input with _ | p'
    · exact ⟨rfl, hnotes.append (.refl _)⟩
    · exact ⟨(ih p').1, hnotes.append (ih p').2⟩

/-! ## The proof that is shown -/

/-- What becomes of a proof by the moves, and by the deletions of the options. -/
def Options.changed (o : Options) (moves : List Move) (p : Proof) : Proof :=
  (makeDeletions o.quiet (makeMoves o.quiet p moves).2 o.deletions).2

theorem Options.changed_unhushed (o : Options) (moves : List Move) (p : Proof) :
    o.unhushed.changed moves p = o.changed moves p := by
  show (makeDeletions false (makeMoves false p moves).2 o.deletions).2 = _
  rw [changed, (makeMoves_hushed o.quiet moves p).1, (makeDeletions_hushed o.quiet o.deletions _).1]

/-- The proof of a goal that is shown in the end, if the goal is a formula. -/
def Options.proofOf? (o : Options) (goal : String) (moves : List Move) : Option Proof :=
  ((Proof.startWith goal ((o.kb.map (·.premises)).getD [])).toOption).map (o.changed moves)

/-- The proof that is shown in the end, if the options have a goal and no fault ends the program before. -/
def shownProof? (o : Options) (moves : List Move) : Option Proof :=
  match (formulaPart o).2, o.goal with
  | none, some goal => o.proofOf? goal moves
  | _, _ => none

theorem shownProof?_unhushed (o : Options) (moves : List Move) :
    shownProof? o.unhushed moves = shownProof? o moves := by
  unfold shownProof? Options.proofOf?
  rw [funext (o.changed_unhushed moves)]
  rfl

/-- The lines that show a proof, or none if there is no proof. -/
def blockLines (p : Option Proof) : List String :=
  (p.map Proof.lines).getD []

variable {o : Options} {goal : String}

theorem proofLines_error {e : FormulaError} (h : Proof.startWith goal ((o.kb.map (·.premises)).getD []) = .error e)
    (moves : List Move) : proofLines o goal moves = ["Invalid goal: " ++ e.message] := by
  unfold proofLines
  rw [h]

theorem proofLines_ok {p : Proof} (h : Proof.startWith goal ((o.kb.map (·.premises)).getD []) = .ok p)
    (moves : List Move) : proofLines o goal moves =
      ((if o.quiet then [] else ["Proving " ++ goal ++ (match o.kb with
          | some kb => " from " ++ kb.id
          | none => "")])
        ++ (makeMoves o.quiet p moves).1 ++ (makeDeletions o.quiet (makeMoves o.quiet p moves).2 o.deletions).1)
        ++ (o.changed moves p).lines
        ++ (if o.rules || !o.quiet then (o.changed moves p).ruleLines else []) := by
  unfold proofLines
  rw [h]
  rfl

theorem proofLines_hushed (goal : String) (moves : List Move) :
    LeavesOut (blockLines (o.proofOf? goal moves)) (proofLines o goal moves) (proofLines o.unhushed goal moves) := by
  unfold Options.proofOf?
  rcases h : Proof.startWith goal ((o.kb.map (·.premises)).getD []) with e | p
  · rw [h, proofLines_error h, proofLines_error (o := o.unhushed) h]
    exact .refl _
  · rw [h, proofLines_ok h, proofLines_ok (o := o.unhushed) h, o.changed_unhushed]
    refine ⟨_, _, _, _, rfl, rfl, ?_, ?_⟩
    · -- the deletions start from the proof that the moves lead to, which is the same one
      obtain ⟨hsame, hmade⟩ := makeMoves_hushed o.quiet moves p
      rw [hsame]
      exact ((hidden_sublist o.quiet _).append hmade).append (makeDeletions_hushed o.quiet o.deletions _).2
    · show (if o.rules || !o.quiet then _ else []).Sublist (if o.rules || !false then _ else [])
      rw [Bool.not_false, Bool.or_true, if_pos rfl]
      split
      · exact .refl _
      · exact List.nil_sublist _

theorem lines_eq (o : Options) (moves : List Move) :
    lines o moves = catalogLines o ++ (formulaPart o).1 ++ match (formulaPart o).2, o.goal with
      | none, some goal => proofLines o goal moves
      | _, _ => [] :=
  rfl

theorem lines_hushed (o : Options) (moves : List Move) :
    LeavesOut (blockLines (shownProof? o moves)) (lines o moves) (lines o.unhushed moves) := by
  rw [lines_eq, lines_eq]
  refine LeavesOut.behind (catalogLines o ++ (formulaPart o).1) ?_
  unfold shownProof?
  rw [show formulaPart o.unhushed = formulaPart o from rfl, show o.unhushed.goal = o.goal from rfl]
  rcases (formulaPart o).2 with _ | fault
  · rcases o.goal with _ | goal
    · exact .refl []
    · exact proofLines_hushed goal moves
  · exact .refl []

end Shown

section Answer

variable [CallStack]

/-- The proof that the command line of the words shows, if it is accepted and shows one. -/
def printedProof? (words : List String) : Option Proof :=
  (Options.read words).toOption.bind fun o => (o.moves.mapM Move.read).toOption.bind fun moves =>
    shownProof? o moves

variable {words : List String} {o : Options} {moves : List Move}

theorem answer_of_read (hread : Options.read words = .ok o) (hmoves : o.moves.mapM Move.read = .ok moves) :
    answer words = .ran (lines o moves) (formulaPart o).2 := by
  unfold answer
  rw [hread]
  dsimp only
  rw [hmoves]

theorem printedProof?_of_read (hread : Options.read words = .ok o) (hmoves : o.moves.mapM Move.read = .ok moves) :
    printedProof? words = shownProof? o moves := by
  unfold printedProof?
  rw [hread]
  show (o.moves.mapM Move.read).toOption.bind _ = _
  rw [hmoves]
  rfl

theorem read_of_ran {q : List String} {fault : Option TruthTable.Fault} (h : answer words = .ran q fault) :
    ∃ o moves, Options.read words = .ok o ∧ o.moves.mapM Move.read = .ok moves ∧ q = lines o moves ∧
      fault = (formulaPart o).2 := by
  unfold answer at h
  split at h
  · cases h
  · cases h
  · rename_i o hread
    split at h
    · cases h
    · rename_i moves hmoves
      cases h
      exact ⟨o, moves, hread, hmoves, rfl, rfl⟩

theorem read_of_help (h : answer words = .help) : Options.read words = .error .help := by
  unfold answer at h
  split at h
  · assumption
  · cases h
  · split at h <;> cases h

theorem answer_of_help (h : Options.read words = .error .help) : answer words = .help := by
  unfold answer
  rw [h]

end Answer

/-- The lines that are printed, where no fault ends the program. -/
def Outcome.printed? : Outcome → Option (List String)
  | ran lines none => some lines
  | _ => none

theorem Outcome.eq_ran_of_printed? {outcome : Outcome} {lines : List String} (h : outcome.printed? = some lines) :
    outcome = .ran lines none := by
  unfold printed? at h
  split at h
  · cases h
    rfl
  · cases h

/-- To be quiet only hides lines. A command line that asks for help, or is accepted, does so also without the option
to be quiet, however that is written. It ends in the same way and shows the same proof, and what it prints is what is
printed without the option with lines left out, but none of those that show the proof. -/
theorem answer_quiet [CallStack] (words : List String) :
    (answer words = .help → answer (unhushedWords words) = .help) ∧
      ∀ q fault, answer words = .ran q fault →
        ∃ l, answer (unhushedWords words) = .ran l fault ∧
          printedProof? (unhushedWords words) = printedProof? words ∧
          q.Sublist l ∧ LeavesOut (blockLines (printedProof? words)) q l := by
  constructor
  · intro h
    exact answer_of_help (Options.read_unhushed (read_of_help h) (by simp))
  · intro q fault h
    obtain ⟨o, moves, hread, hmoves, rfl, rfl⟩ := read_of_ran h
    have hunhushed := Options.read_unhushed hread (by simp)
    have hlines := lines_hushed o moves
    rw [printedProof?_of_read hread hmoves, printedProof?_of_read hunhushed hmoves, shownProof?_unhushed]
    exact ⟨lines o.unhushed moves, answer_of_read hunhushed hmoves, rfl, hlines.sublist, hlines⟩

attribute [local instance] CallStack.usual

/-- A rule that applies, one that does not, and a deletion that is rejected, with names of options that are cut
short. -/
theorem answer_quiet_modusPonens :
    ∃ q l p, answer ["--kb", "modus-ponens", "--quie", "--goal", "q", "--appl", "mp 1 2", "--apply", "mt 1 2",
        "--delete", "1"] = .ran q none ∧
      answer ["--kb", "modus-ponens", "--goal", "q", "--appl", "mp 1 2", "--apply", "mt 1 2",
        "--delete", "1"] = .ran l none ∧
      printedProof? ["--kb", "modus-ponens", "--goal", "q", "--appl", "mp 1 2", "--apply", "mt 1 2",
        "--delete", "1"] = some p ∧
      q.Sublist l ∧ LeavesOut p.lines q l := by
  have haccepted : (answer ["--kb", "modus-ponens", "--quie", "--goal", "q", "--appl", "mp 1 2", "--apply",
      "mt 1 2", "--delete", "1"]).printed?.isSome = true := by
    decide +kernel
  have hshown : (printedProof? ["--kb", "modus-ponens", "--goal", "q", "--appl", "mp 1 2", "--apply", "mt 1 2",
      "--delete", "1"]).isSome = true := by
    decide +kernel
  have hwords : unhushedWords ["--kb", "modus-ponens", "--quie", "--goal", "q", "--appl", "mp 1 2", "--apply",
      "mt 1 2", "--delete", "1"] = ["--kb", "modus-ponens", "--goal", "q", "--appl", "mp 1 2", "--apply", "mt 1 2",
      "--delete", "1"] := by
    decide +kernel
  obtain ⟨q, hq⟩ := Option.isSome_iff_exists.1 haccepted
  obtain ⟨p, hp⟩ := Option.isSome_iff_exists.1 hshown
  obtain ⟨l, hl, hsame, hsublist, hleaves⟩ := (answer_quiet _).2 q none (Outcome.eq_ran_of_printed? hq)
  rw [hwords] at hl hsame
  rw [← hsame, hp] at hleaves
  exact ⟨q, l, p, Outcome.eq_ran_of_printed? hq, hl, hp, hsublist, hleaves⟩

end Deduction.CommandLine
