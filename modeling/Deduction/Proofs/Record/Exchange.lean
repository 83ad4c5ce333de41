/-
The exchange of proofs as records. A format lists the keys of a record: what may stand under each of them, and what
it means that nothing stands there. The faults of a record are listed in reading order (`Step.recordFaults`,
`Proof.recordFaults`). A reader that stops at the first of them is put together from its parts: where one part of
it stops at the first of some faults and the next part at the first of others, both together stop at the first of
all (`Settles.bind`), and so does a row of readers (`Settles.mapM`). A record without a fault gives a proof, which
is written as the record with what it left out (`Record.completed`).
-/
import Deduction.Record.Proof

namespace Deduction

namespace Record

/-! ## Formats -/

/-- What a format says of a key: which values may stand under it, what it means that none does, if it may be left
out, and how a value that stands there is completed. -/
structure Slot where
  key : String
  typed : Value → Prop
  absent : Option Value
  complete : Value → Value

namespace Slot

def required (key : String) (typed : Value → Prop) : Slot :=
  ⟨key, typed, none, id⟩

def optional (key : String) (typed : Value → Prop) (absent : Value) : Slot :=
  ⟨key, typed, some absent, id⟩

end Slot

/-- The value is a record, and what stands under the keys of the format is of their types. -/
structure WellTyped (format : List Slot) (d : Value) : Prop where
  dict : ∃ fields, d = .dict fields
  typed : ∀ slot ∈ format, ∀ v, d.get? slot.key = some v → slot.typed v

/-- The record with the keys of the format only, and with those that it may leave out. -/
def completed (format : List Slot) (d : Value) : Value :=
  .dict (format.filterMap fun slot =>
    ((d.get? slot.key).or slot.absent).map fun v => (slot.key, slot.complete v))

/-- The keys that the record must have and does not. -/
def missingKeys (format : List Slot) (d : Value) : List String :=
  (format.filter fun slot => slot.absent.isNone && (d.get? slot.key).isNone).map (·.key)

theorem missingKeys_cons (slot : Slot) (format : List Slot) (d : Value) : missingKeys (slot :: format) d =
    (if slot.absent.isNone && (d.get? slot.key).isNone then [slot.key] else []) ++ missingKeys format d := by
  unfold missingKeys
  rw [List.filter_cons]
  split
  · rfl
  · rfl

namespace Value

def IsText (v : Value) : Prop := ∃ s, v = .text s

def IsNumber (v : Value) : Prop := ∃ n, v = .number n

def IsTruth (v : Value) : Prop := ∃ b, v = .truth b

def AreTexts (v : Value) : Prop := ∃ ss : List String, v = .list (ss.map .text)

def AreNumbers (v : Value) : Prop := ∃ ns : List Int, v = .list (ns.map .number)

/-- A list of records of the format. -/
def AreRecords (format : List Slot) (v : Value) : Prop :=
  ∃ items, v = .list items ∧ ∀ item ∈ items, WellTyped format item

/-- The list with each item changed; other values stay. -/
def mapItems (g : Value → Value) : Value → Value
  | list items => list (items.map g)
  | v => v

theorem asTexts?_map (ss : List String) : asTexts? (.list (ss.map .text)) = some ss := by
  show (ss.map Value.text).mapM asText? = some ss
  induction ss with
  | nil => rfl
  | cons s ss ih => rw [List.map_cons, List.mapM_cons, ih]; rfl

theorem asNumbers?_map (ns : List Int) : asNumbers? (.list (ns.map .number)) = some ns := by
  show (ns.map Value.number).mapM asNumber? = some ns
  induction ns with
  | nil => rfl
  | cons n ns ih => rw [List.map_cons, List.mapM_cons, ih]; rfl

end Value

end Record

open Record

/-! ## The first fault -/

/-- The reading stops at the first of the faults, and if there is none it gives what is asked for. -/
def Settles {ε α : Type} (faults : List ε) (r : Except ε α) (P : α → Prop) : Prop :=
  match faults with
  | [] => ∃ a, r = .ok a ∧ P a
  | e :: _ => r = .error e

namespace Settles

variable {ε α β : Type}

theorem pure {P : α → Prop} {a : α} (h : P a) : Settles ([] : List ε) (.ok a) P :=
  ⟨a, rfl, h⟩

theorem bind {fs gs : List ε} {r : Except ε α} {k : α → Except ε β} {P : α → Prop} {Q : β → Prop}
    (hr : Settles fs r P) (hk : ∀ a, P a → Settles gs (k a) Q) : Settles (fs ++ gs) (r >>= k) Q := by
  rcases fs with _ | ⟨e, fs⟩
  · obtain ⟨a, rfl, ha⟩ := hr
    exact hk a ha
  · obtain rfl : r = .error e := hr
    rfl

theorem mapM {γ : Type} {f : α → Except ε β} {faults : α → List ε} {written : β → γ} {expected : α → γ} :
    ∀ {xs : List α}, (∀ x ∈ xs, Settles (faults x) (f x) fun y => written y = expected x) →
      Settles (xs.flatMap faults) (xs.mapM f) fun ys => ys.map written = xs.map expected
  | [], _ => ⟨[], rfl, rfl⟩
  | x :: xs, h => by
    rw [List.flatMap_cons, List.mapM_cons]
    refine (h x List.mem_cons_self).bind fun y hy => ?_
    rw [← List.append_nil (xs.flatMap faults)]
    refine (mapM fun z hz => h z (List.mem_cons_of_mem x hz)).bind fun ys hys => .pure ?_
    rw [List.map_cons, List.map_cons, hy, hys]

/-- Behind a part that always reads. -/
theorem next {gs : List ε} {r : Except ε α} {k : α → Except ε β} {P : α → Prop} {Q : β → Prop}
    (hr : Settles [] r P) (hk : ∀ a, P a → Settles gs (k a) Q) : Settles gs (r >>= k) Q :=
  hr.bind hk

/-- The faults of a part, told as those of the whole. -/
theorem mapError {δ : Type} {fs : List ε} {r : Except ε α} {r' : Except δ α} {P : α → Prop} (wider : ε → δ)
    (h : Settles fs r P) (hok : ∀ a, r = .ok a → r' = .ok a) (herror : ∀ e, r = .error e → r' = .error (wider e)) :
    Settles (fs.map wider) r' P := by
  rcases fs with _ | ⟨e, fs⟩
  · obtain ⟨a, hr, ha⟩ := h
    exact ⟨a, hok a hr, ha⟩
  · exact herror e h

/-- What a reading gives and where it stops, as two facts. -/
theorem outcome {fs : List ε} {r : Except ε α} {P : α → Prop} (h : Settles fs r P) :
    (∀ a, r = .ok a → P a) ∧ ∀ e, r = .error e ↔ fs.head? = some e := by
  rcases fs with _ | ⟨f, fs⟩
  · obtain ⟨a, rfl, ha⟩ := h
    refine ⟨?_, by simp⟩
    rintro b ⟨⟩
    exact ha
  · obtain rfl : r = .error f := h
    exact ⟨by simp, by simp⟩

end Settles

/-! ## Parts of records -/

section Part

variable {α : Type} {d : Value} {key : String} {as? : Value → Option α} (inject : α → Value)

theorem part_required (has : ∀ a, as? (inject a) = some a) {a : α} (h : d.get? key = some (inject a)) :
    Step.part (d.required key as?) = .ok a := by
  unfold Step.part Value.required
  rw [h]
  dsimp only
  rw [has]

theorem part_optional (has : ∀ a, as? (inject a) = some a) (absent : α) {a : α} (h : d.get? key = some (inject a)) :
    Step.part (d.optional key as? absent) = .ok a := by
  unfold Step.part Value.optional
  rw [h]
  dsimp only
  rw [has]

theorem settles_required (has : ∀ a, as? (inject a) = some a) (htyped : ∀ v, d.get? key = some v → ∃ a, v = inject a) :
    Settles (if (d.get? key).isNone then [.shape (.missing key)] else []) (Step.part (d.required key as?))
      fun a => d.get? key = some (inject a) := by
  rcases hv : d.get? key with _ | v
  · unfold Step.part Value.required
    rw [hv]
    exact rfl
  · obtain ⟨a, rfl⟩ := htyped v hv
    rw [part_required inject has hv]
    exact .pure rfl

theorem settles_optional (has : ∀ a, as? (inject a) = some a) (htyped : ∀ v, d.get? key = some v → ∃ a, v = inject a)
    (absent : α) : Settles [] (Step.part (d.optional key as? absent))
      fun a => (d.get? key).or (some (inject absent)) = some (inject a) := by
  rcases hv : d.get? key with _ | v
  · unfold Step.part Value.optional
    rw [hv]
    exact .pure rfl
  · obtain ⟨a, rfl⟩ := htyped v hv
    rw [part_optional inject has absent hv]
    exact .pure rfl

/-- What stands under a key that may be left out, as it is looked up without reading the record. -/
theorem getD_of_or (has : ∀ a, as? (inject a) = some a) {absent a : α}
    (h : (d.get? key).or (some (inject absent)) = some (inject a)) : ((d.get? key).bind as?).getD absent = a := by
  rcases hv : d.get? key with _ | v
  · rw [hv, Option.none_or] at h
    have hsame : as? (inject absent) = as? (inject a) := congrArg as? (Option.some.inj h)
    rw [has, has] at hsame
    exact Option.some.inj hsame
  · rw [hv, Option.some_or] at h
    rw [h, Option.bind_some, has]
    rfl

end Part

/-! ## Names of rules -/

namespace RuleId

theorem mem_all (r : RuleId) : r ∈ all := by
  cases r <;> decide

theorem ofName?_name (r : RuleId) : ofName? r.name = some r := by
  cases r <;> decide

theorem name_of_ofName? {word : String} {r : RuleId} (h : ofName? word = some r) : r.name = word := by
  simpa using List.find?_some h

theorem not_mem_of_ofName? {word : String} (h : ofName? word = none) : word ∉ all.map (·.name) := by
  rintro hmem
  obtain ⟨r, hr, rfl⟩ := List.mem_map.1 hmem
  rw [ofName?_name] at h
  cases h

end RuleId

/-! ## Steps -/

namespace Step

/-- The records of steps: number, formula and rule must be there. -/
def format : List Slot :=
  [.required "id" Value.IsNumber, .required "formula" Value.IsText, .required "rule_id" Value.IsText,
   .optional "dependencies" Value.AreNumbers (.list []), .optional "justification" Value.IsText (.text ""),
   .optional "depth" Value.IsNumber (.number 0)]

/-- What keeps the parts from making a step: a number below one, a negative depth, and each dependency that is no
smaller than the number. -/
def faults (id depth : Int) (dependencies : List Int) : List StepFault :=
  (if id < 1 then [.idNotPositive id] else []) ++ (if depth < 0 then [.depthNegative depth] else [])
    ++ (dependencies.filter (id ≤ ·)).map (.dependsOnLater id)

/-- The name of a rule that the record has and no rule bears. -/
def unknownRules (d : Value) : List StepReadFault :=
  match d.get? "rule_id" with
  | some (.text word) => if word ∈ RuleId.all.map (·.name) then [] else [.unknownRule word]
  | _ => []

/-- The faults of the parts of a record, where it has a number. -/
def partFaults (d : Value) : List StepFault :=
  match d.get? "id" with
  | some (.number id) =>
    faults id (((d.get? "depth").bind Value.asNumber?).getD 0)
      (((d.get? "dependencies").bind Value.asNumbers?).getD [])
  | _ => []

/-- The faults of the record of a step, in reading order. -/
def recordFaults (d : Value) : List StepReadFault :=
  (missingKeys format d).map (.shape <| .missing ·) ++ unknownRules d ++ (partFaults d).map .step

theorem missing_eq (d : Value) : (missingKeys format d).map (fun key => StepReadFault.shape (.missing key)) =
    (if (d.get? "id").isNone then [.shape (.missing "id")] else []) ++
      ((if (d.get? "formula").isNone then [.shape (.missing "formula")] else []) ++
        (if (d.get? "rule_id").isNone then [.shape (.missing "rule_id")] else [])) := by
  simp only [format, Slot.required, Slot.optional, missingKeys_cons, List.map_append]
  rcases d.get? "id" <;> rcases d.get? "formula" <;> rcases d.get? "rule_id" <;> rfl

theorem settles_make (id : Int) (formula : String) (rule : RuleId) (dependencies : List Int) (justification : String)
    (depth : Int) : Settles (faults id depth dependencies) (make id formula rule dependencies justification depth)
      fun s => s.toRecord = .dict
        [("id", .number id), ("formula", .text formula), ("rule_id", .text rule.name),
         ("dependencies", .list (dependencies.map .number)), ("justification", .text justification),
         ("depth", .number depth)] := by
  unfold make faults
  by_cases hid : 1 ≤ id
  · by_cases hdepth : 0 ≤ depth
    · rw [if_neg (by omega), if_neg (by omega), dif_pos hid, dif_pos hdepth, List.nil_append, List.nil_append]
      by_cases hdeps : ∀ d ∈ dependencies, d < id
      · have hnone : dependencies.filter (id ≤ ·) = [] := by
          rw [List.filter_eq_nil_iff]
          intro d hd
          have := hdeps d hd
          simpa using this
        rw [dif_pos hdeps, hnone]
        exact .pure rfl
      · rw [dif_neg hdeps]
        have hhead : (dependencies.filter (id ≤ ·)).head? = laterDependency? id dependencies := List.head?_filter
        rcases hlater : dependencies.filter (id ≤ ·) with _ | ⟨d, ds⟩
        · rw [List.filter_eq_nil_iff] at hlater
          exact absurd (fun d hd => by simpa using hlater d hd) hdeps
        · rw [hlater, List.head?_cons] at hhead
          rw [← hhead]
          rfl
    · rw [if_neg (by omega), if_pos (by omega), dif_pos hid, dif_neg hdepth]
      rfl
  · rw [if_pos (by omega), dif_neg hid]
    rfl

/-- The record of a step is read up to its first fault, and if it has none, as a step that is written as the
record completed. -/
theorem settles_ofRecord {d : Value} (h : WellTyped format d) :
    Settles (recordFaults d) (ofRecord d) fun s => s.toRecord = completed format d := by
  have htyped := h.typed
  simp only [format, Slot.required, Slot.optional, List.forall_mem_cons] at htyped
  obtain ⟨hid, hformula, hword, hdeps, hjustification, hdepth, -⟩ := htyped
  unfold recordFaults
  rw [missing_eq, List.append_assoc, List.append_assoc, List.append_assoc]
  refine (settles_required .number (fun _ => rfl) hid).bind fun id hid => ?_
  refine (settles_required .text (fun _ => rfl) hformula).bind fun formula hformula => ?_
  refine (settles_required .text (fun _ => rfl) hword).bind fun word hword => ?_
  -- the name must be that of a rule before the rest is looked at
  unfold unknownRules
  rw [hword]
  dsimp only
  rcases hfound : RuleId.ofName? word with _ | rule
  · rw [if_neg (RuleId.not_mem_of_ofName? hfound)]
    rfl
  · obtain rfl := RuleId.name_of_ofName? hfound
    rw [if_pos (List.mem_map_of_mem (RuleId.mem_all rule)), List.nil_append]
    show Settles _ (part (d.optional "dependencies" Value.asNumbers? []) >>= _) _
    refine (settles_optional (fun ns => .list (ns.map .number)) Value.asNumbers?_map hdeps []).next
      fun dependencies hdeps => ?_
    refine (settles_optional .text (fun _ => rfl) hjustification "").next fun justification hjustification => ?_
    refine (settles_optional .number (fun _ => rfl) hdepth 0).next fun depth hdepth => ?_
    have hparts : partFaults d = faults id depth dependencies := by
      unfold partFaults
      rw [hid, getD_of_or .number (fun _ => rfl) hdepth, getD_of_or _ Value.asNumbers?_map hdeps]
    have hcompleted : completed format d = .dict
        [("id", .number id), ("formula", .text formula), ("rule_id", .text rule.name),
         ("dependencies", .list (dependencies.map .number)), ("justification", .text justification),
         ("depth", .number depth)] := by
      rw [List.map_nil] at hdeps
      simp only [completed, format, Slot.required, Slot.optional, List.filterMap_cons, List.filterMap_nil, hid,
        hformula, hword, hdeps, hjustification, hdepth, Option.or_none, Option.map_some, id_eq]
    rw [hparts, hcompleted]
    refine (settles_make id formula rule dependencies justification depth).mapError StepReadFault.step ?_ ?_
    · intro s hs
      rw [hs]
      rfl
    · intro e he
      rw [he]
      rfl

end Step

/-! ## Proofs -/

namespace Proof

/-- The records of proofs: the goal must be there. -/
def format : List Slot :=
  [.required "goal" Value.IsText, .optional "premises" Value.AreTexts (.list []),
   ⟨"steps", Value.AreRecords Step.format, some (.list []), Value.mapItems (completed Step.format)⟩,
   .optional "current_depth" Value.IsNumber (.number 0), .optional "is_complete" Value.IsTruth (.truth false)]

/-- The faults of the record of a proof, in reading order: that of the goal, then those of each step. -/
def recordFaults (d : Value) : List StepReadFault :=
  (missingKeys format d).map (.shape <| .missing ·)
    ++ (((d.get? "steps").bind Value.asList?).getD []).flatMap Step.recordFaults

theorem missing_eq (d : Value) : (missingKeys format d).map (fun key => StepReadFault.shape (.missing key)) =
    if (d.get? "goal").isNone then [.shape (.missing "goal")] else [] := by
  simp only [format, Slot.required, Slot.optional, missingKeys_cons, List.map_append]
  rcases d.get? "goal" <;> rfl

/-- The record of a proof is read up to its first fault, and if it has none, as a proof that is written as the
record completed. -/
theorem settles_ofRecord {d : Value} (h : WellTyped format d) :
    Settles (recordFaults d) (ofRecord d) fun p => p.toRecord = completed format d := by
  have htyped := h.typed
  simp only [format, Slot.required, Slot.optional, List.forall_mem_cons] at htyped
  obtain ⟨hgoal, hpremises, hsteps, hdepth, hcomplete, -⟩ := htyped
  unfold recordFaults
  rw [missing_eq]
  refine (settles_required .text (fun _ => rfl) hgoal).bind fun goal hgoal => ?_
  refine (settles_optional (fun ss => .list (ss.map .text)) Value.asTexts?_map hpremises []).next
    fun premises hpremises => ?_
  have hlist : ∀ v, d.get? "steps" = some v → ∃ items, v = .list items := by
    intro v hv
    obtain ⟨items, rfl, -⟩ := hsteps v hv
    exact ⟨items, rfl⟩
  refine (settles_optional .list (fun _ => rfl) hlist []).next fun records hrecords => ?_
  rw [getD_of_or .list (fun _ => rfl) hrecords, ← List.append_nil (records.flatMap _)]
  have hformed : ∀ r ∈ records, WellTyped Step.format r := by
    rcases hv : d.get? "steps" with _ | v
    · rw [hv, Option.none_or] at hrecords
      cases hrecords
      exact fun r hr => absurd hr List.not_mem_nil
    · rw [hv, Option.some_or] at hrecords
      cases hrecords
      obtain ⟨items, hitems, htyped⟩ := hsteps _ hv
      cases hitems
      exact htyped
  refine (Settles.mapM fun r hr => Step.settles_ofRecord (hformed r hr)).bind fun steps hsteps => ?_
  have hwritten : steps.map Step.toRecord = records.map (completed Step.format) := hsteps
  refine (settles_optional .number (fun _ => rfl) hdepth 0).next fun depth hdepth => ?_
  refine (settles_optional .truth (fun _ => rfl) hcomplete false).next fun complete hcomplete => ?_
  refine .pure ?_
  rw [List.map_nil] at hpremises
  simp only [toRecord, completed, format, Slot.required, Slot.optional, List.filterMap_cons, List.filterMap_nil,
    hgoal, hpremises, hrecords, hdepth, hcomplete, Option.or_none, Option.map_some, id_eq, Value.mapItems, hwritten]

end Proof

/-! ## Writing and reading back -/

theorem Step.make_self (s : Step) :
    make s.id s.formula s.rule s.dependencies s.justification s.depth = .ok s := by
  unfold make
  rw [dif_pos s.id_pos, dif_pos s.depth_nonneg, dif_pos s.dependencies_lt]

theorem Step.ofRecord_toRecord (s : Step) : ofRecord s.toRecord = .ok s := by
  unfold ofRecord
  rw [part_required .number (fun _ => rfl) (rfl : s.toRecord.get? "id" = some (.number s.id)),
    part_required .text (fun _ => rfl) (rfl : s.toRecord.get? "formula" = some (.text s.formula)),
    part_required .text (fun _ => rfl) (rfl : s.toRecord.get? "rule_id" = some (.text s.rule.name)),
    part_optional _ Value.asNumbers?_map []
      (rfl : s.toRecord.get? "dependencies" = some (.list (s.dependencies.map .number))),
    part_optional .text (fun _ => rfl) "" (rfl : s.toRecord.get? "justification" = some (.text s.justification)),
    part_optional .number (fun _ => rfl) 0 (rfl : s.toRecord.get? "depth" = some (.number s.depth))]
  dsimp only [bind, Except.bind]
  rw [RuleId.ofName?_name]
  dsimp only [pure, Except.pure]
  rw [make_self]

theorem Step.mapM_ofRecord_toRecord : ∀ steps : List Step, (steps.map toRecord).mapM ofRecord = .ok steps
  | [] => rfl
  | s :: steps => by
    rw [List.map_cons, List.mapM_cons, ofRecord_toRecord, mapM_ofRecord_toRecord steps]
    rfl

theorem Proof.ofRecord_toRecord (p : Proof) : ofRecord p.toRecord = .ok p := by
  unfold ofRecord
  rw [part_required .text (fun _ => rfl) (rfl : p.toRecord.get? "goal" = some (.text p.goal)),
    part_optional _ Value.asTexts?_map []
      (rfl : p.toRecord.get? "premises" = some (.list (p.premises.map .text))),
    part_optional .list (fun _ => rfl) []
      (rfl : p.toRecord.get? "steps" = some (.list (p.steps.map Step.toRecord))),
    part_optional .number (fun _ => rfl) 0 (rfl : p.toRecord.get? "current_depth" = some (.number p.depth)),
    part_optional .truth (fun _ => rfl) false (rfl : p.toRecord.get? "is_complete" = some (.truth p.complete))]
  dsimp only [bind, Except.bind]
  rw [Step.mapM_ofRecord_toRecord]
  rfl

/-- Nothing is lost in the exchange of proofs. A proof that is written and read back is the same. A well-typed record
that is read is written again as it was, with what it left out and without what the format does not know. A
well-typed record is refused only for its faults, and for the first of them in reading order. -/
theorem Proof.exchange_lossless :
    (∀ p : Proof, ofRecord p.toRecord = .ok p) ∧
      ∀ d, WellTyped format d →
        (∀ p, ofRecord d = .ok p → p.toRecord = completed format d) ∧
          ∀ e, ofRecord d = .error e ↔ (recordFaults d).head? = some e :=
  ⟨ofRecord_toRecord, fun _ h => (settles_ofRecord h).outcome⟩

/-- The record of two steps, with keys in another order, with some left out, and with one that the format does not
know. -/
def Proof.terse (dependency : Int) : Value :=
  .dict
    [("note", .null),
     ("steps", .list
       [.dict [("rule_id", .text "premise"), ("formula", .text "p"), ("id", .number 1)],
        .dict [("id", .number 2), ("dependencies", .list [.number dependency]), ("formula", .text "p | q"),
          ("rule_id", .text "or_intro_left")]]),
     ("goal", .text "p | q")]

theorem Proof.wellTyped_terse (dependency : Int) : WellTyped format (terse dependency) := by
  have hfirst : WellTyped Step.format
      (.dict [("rule_id", .text "premise"), ("formula", .text "p"), ("id", .number 1)]) := by
    refine ⟨⟨_, rfl⟩, ?_⟩
    simp only [Step.format, Slot.required, Slot.optional, List.forall_mem_cons]
    refine ⟨?_, ?_, ?_, ?_, ?_, ?_, nofun⟩
    all_goals rintro v ⟨⟩
    all_goals exact ⟨_, rfl⟩
  have hsecond : WellTyped Step.format
      (.dict [("id", .number 2), ("dependencies", .list [.number dependency]), ("formula", .text "p | q"),
        ("rule_id", .text "or_intro_left")]) := by
    refine ⟨⟨_, rfl⟩, ?_⟩
    simp only [Step.format, Slot.required, Slot.optional, List.forall_mem_cons]
    refine ⟨?_, ?_, ?_, ?_, ?_, ?_, nofun⟩
    all_goals rintro v ⟨⟩
    case refine_4 => exact ⟨[dependency], rfl⟩
    all_goals exact ⟨_, rfl⟩
  have hsteps := List.forall_mem_cons.2 ⟨hfirst, List.forall_mem_singleton.2 hsecond⟩
  refine ⟨⟨_, rfl⟩, ?_⟩
  simp only [format, Slot.required, Slot.optional, List.forall_mem_cons]
  refine ⟨?_, ?_, ?_, ?_, ?_, nofun⟩
  all_goals rintro v ⟨⟩
  case refine_3 => exact ⟨_, rfl, hsteps⟩
  all_goals exact ⟨_, rfl⟩

theorem Proof.exchange_lossless_terse :
    (∃ p, ofRecord (terse 1) = .ok p ∧ p.toRecord = .dict
      [("goal", .text "p | q"), ("premises", .list []),
       ("steps", .list
         [.dict [("id", .number 1), ("formula", .text "p"), ("rule_id", .text "premise"), ("dependencies", .list []),
            ("justification", .text ""), ("depth", .number 0)],
          .dict [("id", .number 2), ("formula", .text "p | q"), ("rule_id", .text "or_intro_left"),
            ("dependencies", .list [.number 1]), ("justification", .text ""), ("depth", .number 0)]]),
       ("current_depth", .number 0), ("is_complete", .truth false)]) ∧
      ofRecord (terse 2) = .error (.step (.dependsOnLater 2 2)) :=
  ⟨⟨_, rfl, (exchange_lossless.2 (terse 1) (wellTyped_terse 1)).1 _ rfl⟩,
    ((exchange_lossless.2 (terse 2) (wellTyped_terse 2)).2 _).2 (by decide)⟩

end Deduction
