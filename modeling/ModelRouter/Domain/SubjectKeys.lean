import ModelRouter.Domain.Strategy
import ModelRouter.Lib.Delimited

/-!
# The subjects of experiments

A subject key joins the experiment's id and the subject's identifiers, which may have the delimiter
in them.

* `subjectIdentifiers` : the identifiers by which an experiment tells its subjects apart;
* `Apart` : no id and no application of two subjects overlap;
* `subjectKey_apart` : two keys are equal for one experiment and one subject only, exactly where the
  subjects are apart; they are where no id and no application has the delimiter in it
  (`apart_of_noDelimiter`).
-/

namespace ModelRouter
open Delimited

/-! ## Overlapping texts -/

/-- `text'` is `text` with the delimiter and more, which `rest` begins with. -/
def Overlaps (text : String) (rest : List String) (text' : String) (rest' : List String) : Prop :=
  rest ≠ [] ∧ ∃ s, text' = text ++ "|" ++ s ∧
    String.intercalate "|" rest = String.intercalate "|" (s :: rest')

variable {text text' : String} {rest rest' : List String}

theorem intercalate_eq_iff : String.intercalate "|" rest = String.intercalate "|" rest' ↔
    ['|'].intercalate (rest.map String.toList) = ['|'].intercalate (rest'.map String.toList) := by
  rw [← String.toList_inj, String.toList_intercalate, String.toList_intercalate]
  rfl

theorem overlaps_iff : Overlaps text rest text' rest' ↔
    Overlap '|' text.toList (rest.map String.toList) text'.toList (rest'.map String.toList) := by
  unfold Overlaps Overlap
  rw [ne_eq, ne_eq, List.map_eq_nil_iff]
  constructor
  · rintro ⟨hne, s, htext, hrest⟩
    refine ⟨hne, s.toList, ?_, intercalate_eq_iff.mp hrest⟩
    rw [htext, String.toList_append, String.toList_append, List.append_assoc]
    rfl
  · rintro ⟨hne, s, htext, hrest⟩
    refine ⟨hne, String.ofList s, ?_, intercalate_eq_iff.mpr ?_⟩
    · rw [← String.toList_inj, htext]
      simp
    · rw [hrest, List.map_cons, String.toList_ofList]

theorem intercalate_cons_eq_iff :
    String.intercalate "|" (text :: rest) = String.intercalate "|" (text' :: rest') ↔
    (text = text' ∧ (rest = [] ↔ rest' = []) ∧
      String.intercalate "|" rest = String.intercalate "|" rest') ∨
      Overlaps text rest text' rest' ∨ Overlaps text' rest' text rest := by
  rw [overlaps_iff, overlaps_iff, @intercalate_eq_iff rest, @intercalate_eq_iff (text :: rest),
    List.map_cons,
    List.map_cons, Delimited.intercalate_cons_eq_iff, String.toList_inj, List.map_eq_nil_iff,
      List.map_eq_nil_iff]

theorem Overlaps.ne (h : Overlaps text rest text' rest') : text ≠ text' :=
  fun heq => (overlaps_iff.mp h).ne (congrArg String.toList heq)

theorem Overlaps.mem (h : Overlaps text rest text' rest') : '|' ∈ text'.toList :=
  (overlaps_iff.mp h).mem

theorem Overlaps.intercalate_eq (h : Overlaps text rest text' rest') :
    String.intercalate "|" (text :: rest) = String.intercalate "|" (text' :: rest') :=
  intercalate_cons_eq_iff.mpr (Or.inr (Or.inl h))

/-! ## Subjects -/

/-- What a subject is to an experiment. -/
structure SubjectIdentifiers where
  application : Option String
  conversation : Option (Option String)
deriving DecidableEq, Repr

def subjectIdentifiers (source : ExperimentSubjectKeySource) (applicationId : String)
    (conversationId : Option String) :
    SubjectIdentifiers :=
  match source with
  | .applicationId => { application := some applicationId, conversation := none }
  | .conversationId => { application := none, conversation := some conversationId }
  | .applicationAndConversation =>
      { application := some applicationId, conversation := some conversationId }

/-- The identifiers in the key. -/
def subjectParts (source : ExperimentSubjectKeySource) (applicationId : String)
    (conversationId : Option String) :
    List String :=
  match source with
  | .applicationId => [applicationId]
  | .conversationId => conversationId.toList
  | .applicationAndConversation => applicationId :: conversationId.toList

theorem buildExperimentSubjectKey_eq (experiment : ExperimentPolicy) (applicationId : String)
    (conversationId : Option String) :
      buildExperimentSubjectKey experiment applicationId conversationId =
      String.intercalate "|" (experiment.experimentId ::
        subjectParts experiment.subjectKeySource applicationId conversationId) := by
  unfold buildExperimentSubjectKey subjectParts
  cases experiment.subjectKeySource <;> rfl

/-- The experiments' ids do not overlap with the identifiers that follow them, and neither do the
applications of one experiment with the conversations. -/
structure Apart (experiment experiment' : ExperimentPolicy) (applicationId applicationId' : String)
    (conversationId conversationId' : Option String) : Prop where
  experiments :
    ¬ Overlaps experiment.experimentId
      (subjectParts experiment.subjectKeySource applicationId conversationId)
      experiment'.experimentId
        (subjectParts experiment'.subjectKeySource applicationId' conversationId')
  experiments' :
    ¬ Overlaps experiment'.experimentId
      (subjectParts experiment'.subjectKeySource applicationId' conversationId')
      experiment.experimentId (subjectParts experiment.subjectKeySource applicationId
        conversationId)
  applications : experiment = experiment' →
    experiment.subjectKeySource = .applicationAndConversation →
    ¬ Overlaps applicationId conversationId.toList applicationId' conversationId'.toList
  applications' : experiment = experiment' →
    experiment.subjectKeySource = .applicationAndConversation →
    ¬ Overlaps applicationId' conversationId'.toList applicationId conversationId.toList

variable {experiment experiment' : ExperimentPolicy} {applicationId applicationId' : String}
  {conversationId conversationId' : Option String}

theorem apart_of_noDelimiter (hexperiment : '|' ∉ experiment.experimentId.toList)
    (hexperiment' : '|' ∉ experiment'.experimentId.toList)
    (happlication : '|' ∉ applicationId.toList) (happlication' : '|' ∉ applicationId'.toList) :
    Apart experiment experiment' applicationId applicationId' conversationId conversationId' where
  experiments h := hexperiment' h.mem
  experiments' h := hexperiment h.mem
  applications _ _ h := happlication' h.mem
  applications' _ _ h := happlication h.mem

theorem conversation_eq (hnil : conversationId.toList = [] ↔ conversationId'.toList = [])
    (h : String.intercalate "|" conversationId.toList =
      String.intercalate "|" conversationId'.toList) :
    conversationId = conversationId' := by
  cases conversationId <;> cases conversationId' <;> simp_all

/-- Applications that overlap make one key. -/
theorem subjectKey_eq_of_overlaps
    (hsource : experiment.subjectKeySource = .applicationAndConversation)
    (h : Overlaps applicationId conversationId.toList applicationId' conversationId'.toList) :
    buildExperimentSubjectKey experiment applicationId conversationId =
      buildExperimentSubjectKey experiment applicationId' conversationId' := by
  rw [buildExperimentSubjectKey_eq, buildExperimentSubjectKey_eq, hsource]
  exact intercalate_cons_eq_iff.mpr (Or.inl ⟨rfl, by simp [subjectParts], h.intercalate_eq⟩)

theorem subjectIdentifiers_ne (h : applicationId ≠ applicationId') :
    subjectIdentifiers .applicationAndConversation applicationId conversationId ≠
      subjectIdentifiers .applicationAndConversation applicationId' conversationId' := by
  intro heq
  exact h (Option.some.inj (congrArg SubjectIdentifiers.application heq))

/-- **When subjects are kept apart.** Equal keys are those of one experiment id and, under one
policy, of one subject, exactly where the ids and identifiers do not overlap. -/
theorem subjectKey_apart :
    (buildExperimentSubjectKey experiment applicationId conversationId =
        buildExperimentSubjectKey experiment' applicationId' conversationId' →
      experiment.experimentId = experiment'.experimentId ∧ (experiment = experiment' →
        subjectIdentifiers experiment.subjectKeySource applicationId conversationId =
          subjectIdentifiers experiment'.subjectKeySource applicationId' conversationId')) ↔
      Apart experiment experiment' applicationId applicationId' conversationId conversationId' := by
  constructor
  · intro h
    constructor
    case experiments =>
      intro hoverlap
      rw [buildExperimentSubjectKey_eq, buildExperimentSubjectKey_eq] at h
      exact hoverlap.ne (h hoverlap.intercalate_eq).1
    case experiments' =>
      intro hoverlap
      rw [buildExperimentSubjectKey_eq, buildExperimentSubjectKey_eq] at h
      exact hoverlap.ne (h hoverlap.intercalate_eq.symm).1.symm
    case applications =>
      rintro rfl hsource hoverlap
      have hidentifiers := (h (subjectKey_eq_of_overlaps hsource hoverlap)).2 rfl
      rw [hsource] at hidentifiers
      exact subjectIdentifiers_ne hoverlap.ne hidentifiers
    case applications' =>
      rintro rfl hsource hoverlap
      have hidentifiers := (h (subjectKey_eq_of_overlaps hsource hoverlap).symm).2 rfl
      rw [hsource] at hidentifiers
      exact subjectIdentifiers_ne hoverlap.ne.symm hidentifiers
  · intro h hkey
    rw [buildExperimentSubjectKey_eq, buildExperimentSubjectKey_eq] at hkey
    rcases intercalate_cons_eq_iff.mp hkey with ⟨hid, hnil, hparts⟩ | hoverlap | hoverlap
    · refine ⟨hid, fun hsame => ?_⟩
      subst hsame
      cases hsource : experiment.subjectKeySource with
      | applicationId =>
          rw [hsource] at hparts
          simpa [subjectParts, subjectIdentifiers] using hparts
      | conversationId =>
          rw [hsource] at hnil hparts
          simp only [subjectIdentifiers, conversation_eq hnil hparts]
      | applicationAndConversation =>
          rw [hsource] at hparts
          rcases intercalate_cons_eq_iff.mp hparts with ⟨happlication, hnil', hconversation⟩ |
            hoverlap | hoverlap
          · simp only [subjectIdentifiers, happlication, conversation_eq hnil' hconversation]
          · exact absurd hoverlap (h.applications rfl hsource)
          · exact absurd hoverlap (h.applications' rfl hsource)
    · exact absurd hoverlap h.experiments
    · exact absurd hoverlap h.experiments'

namespace Scenario

def experimentPolicy (experimentId : String) (subjectKeySource : ExperimentSubjectKeySource) :
    ExperimentPolicy where
  experimentId := experimentId
  arms := [{ modelAlias := "arm-a", weight := 70 }, { modelAlias := "arm-b", weight := 30 }]
  subjectKeySource := subjectKeySource
  two_arms := Nat.le_refl 2

/-- Two conversations of one experiment share a key, `app|eu`'s `conv` and `app`'s `eu|conv`; and
one conversation has the same key in two experiments, `exp` and `exp|app`. -/
theorem subjects_shared :
    (buildExperimentSubjectKey (experimentPolicy "exp" .applicationAndConversation) "app|eu"
      (some "conv") =
        buildExperimentSubjectKey (experimentPolicy "exp" .applicationAndConversation) "app"
          (some "eu|conv") ∧
      subjectIdentifiers .applicationAndConversation "app|eu" (some "conv") ≠
        subjectIdentifiers .applicationAndConversation "app" (some "eu|conv")) ∧
    (buildExperimentSubjectKey (experimentPolicy "exp" .applicationAndConversation) "app"
      (some "conv") =
        buildExperimentSubjectKey (experimentPolicy "exp|app" .conversationId) "app" (some "conv") ∧
      (experimentPolicy "exp" .applicationAndConversation).experimentId ≠
        (experimentPolicy "exp|app" .conversationId).experimentId) := by
  decide +kernel

end Scenario

end ModelRouter
