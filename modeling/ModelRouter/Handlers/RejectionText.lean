import ModelRouter.Handlers.ExceptionText
import ModelRouter.Lib.Text

/-!
# What a rejection says of the messages

Two bodies that agree everywhere but in the contents of their messages (`SameBody`), both rejected:
their exceptions have the same text exactly where pydantic comes to a content that is no text in
both of them, and shows it alike, or in none of them (`text_eq_iff`).

* `contentReached` : the content of a body that pydantic rejects, if the parser comes to one;
* `Rendering.shown` : what a `ValidationError` says of it;
* `Other` : the text of an exception that is not about a content.
-/

namespace ModelRouter
open Json PyValue Pydantic Text Outcome

/-! ## Bodies that agree but for the contents -/

/-- The dictionaries agree but for the values of one key, which are related. -/
def AgreeBut (key : String) (R : PyValue → PyValue → Prop) :
    List (Str × PyValue) → List (Str × PyValue) → Prop :=
  List.Forall₂ fun member member' => member.1 = member'.1 ∧
    (member.2 = member'.2 ∨ member.1 = .text key ∧ R member.2 member'.2)

inductive SameMessage : PyValue → PyValue → Prop
  | refl (message : PyValue) : SameMessage message message
  | content {members members' : List (Str × PyValue)}
      (h : AgreeBut "content" (fun _ _ => True) members members') :
      SameMessage (.object members) (.object members')

inductive SameMessages : PyValue → PyValue → Prop
  | refl (messages : PyValue) : SameMessages messages messages
  | items {items items' : List PyValue} (h : List.Forall₂ SameMessage items items') :
      SameMessages (.array items) (.array items')

inductive SameBody : PyValue → PyValue → Prop
  | refl (body : PyValue) : SameBody body body
  | messages {members members' : List (Str × PyValue)}
      (h : AgreeBut "messages" SameMessages members members') :
      SameBody (.object members) (.object members')

section Agree
variable {key : String} {R : PyValue → PyValue → Prop} {members members' : List (Str × PyValue)}

theorem lookup_cons {α : Type} (key : String) (member : Str × α) (members : List (Str × α)) :
    lookup key (member :: members) = if member.1 = .text key then some member.2
      else lookup key members := by
  unfold lookup
  by_cases h : member.1 = .text key <;> simp [h]

theorem AgreeBut.lookup_ne (h : AgreeBut key R members members') {key' : String}
    (hne : key' ≠ key) :
    lookup key' members = lookup key' members' := by
  induction h with
  | nil => rfl
  | @cons member member' members members' hmember _ ih =>
      rw [lookup_cons, lookup_cons, ih, ← hmember.1]
      by_cases hkey : member.1 = .text key'
      · rw [if_pos hkey, if_pos hkey]
        rcases hmember.2 with heq | ⟨hother, -⟩
        · rw [heq]
        · exact absurd (Str.text.inj (hkey.symm.trans hother)) hne
      · rw [if_neg hkey, if_neg hkey]

theorem AgreeBut.lookup_same (h : AgreeBut key R members members') :
    lookup key members = lookup key members' ∨
    ∃ value value', lookup key members = some value ∧ lookup key members' = some value' ∧
      R value value' := by
  induction h with
  | nil => exact Or.inl rfl
  | @cons member member' members members' hmember _ ih =>
      rw [lookup_cons, lookup_cons, ← hmember.1]
      by_cases hkey : member.1 = .text key
      · rw [if_pos hkey, if_pos hkey]
        rcases hmember.2 with heq | ⟨-, hrelated⟩
        · exact Or.inl (congrArg some heq)
        · exact Or.inr ⟨_, _, rfl, rfl, hrelated⟩
      · rw [if_neg hkey, if_neg hkey]
        exact ih

end Agree

/-! ## The content that is reached -/

/-- The role of a message, and its content as it stands. -/
def readMessage (message : PyValue) : Except DynamicError (Role × PyValue) := do
  let role ← PyValue.enumOf roles (← message.getItem "role")
  let content ← message.getItem "content"
  pure (role, content)

/-- The first content that is not a text, where everything before it is in order. -/
def badContent : List PyValue → Option PyValue
  | [] => none
  | message :: messages =>
    match readMessage message with
    | .ok (_, content) => if (str content).isSome then badContent messages else some content
    | .error _ => none

/-- The requirements of a body and its messages, if the parser comes to them. -/
def messagesReached (pydantic : Pydantic) (body : PyValue) :
    Except DynamicError (RoutingRequirements × List PyValue) := do
  let requirementsRaw := (← body.get "requirements").orEmpty
  let requirements ← parseRequirements pydantic requirementsRaw
  let messages ← (← body.getItem "messages").iter
  pure (requirements, messages)

def contentReached (pydantic : Pydantic) (body : PyValue) : Option PyValue :=
  (messagesReached pydantic body).toOption.bind fun reached => badContent reached.2

namespace Rendering

variable (rendering : Rendering)

/-- What a `ValidationError` says of a value that is not a text: the type of the error, the value
and its type. -/
def shown (value : PyValue) : String × String × String :=
  ((stringError value).2, rendering.inputValue value, inputType value)

def contentText (content : PyValue) : String :=
  validationText "Message" (rendering.strError "content" content)

variable {rendering}

/-! ## The text about a content -/

theorem contentText_eq (content : PyValue) : rendering.contentText content =
    "1 validation error for Message\ncontent\n  " ++ rendering.errorLine (stringError content).1
      (stringError content).2 (rendering.inputValue content) (inputType content) := by
  have hone : toString 1 = "1" := rfl
  apply String.toList_injective
  simp only [contentText, validationText, strError, List.map_cons, List.map_nil,
    List.length_singleton, if_pos,
    String.join, List.foldl_cons, List.foldl_nil, hone, String.toList_append]
  simp

theorem inputType_ne (value : PyValue) : ∀ c ∈ (inputType value).toList, c ≠ '=' := by
  cases value with
  | number n => cases n <;> simp [inputType, typeName]
  | _ => simp [inputType, typeName]

/-- The type of the input is what follows the last sign of equality. -/
theorem errorLine_inj {message type inputValue inputValue' inputType inputType' : String}
    (htype : ∀ c ∈ inputType.toList, c ≠ '=') (htype' : ∀ c ∈ inputType'.toList, c ≠ '=')
    (h : rendering.errorLine message type inputValue inputType =
      rendering.errorLine message type inputValue' inputType') : inputValue = inputValue' ∧
      inputType = inputType' := by
  simp only [errorLine, String.append_left_inj] at h
  have hchars := congrArg String.toList h
  rw [String.toList_append, String.toList_append (s := _ ++ inputValue' ++ _)] at hchars
  have hlast : ∀ text : String, ∀ c ∈ (text ++ ", input_type=").toList.getLast?, ¬ c ≠ '=' := by
    intro text c hc
    simpa [eq_comm] using hc
  obtain ⟨hleft, hright⟩ := append_cancel_right htype htype' (hlast _) (hlast _) hchars
  have hleft := String.toList_injective hleft
  rw [String.append_left_inj, String.append_right_inj] at hleft
  exact ⟨hleft, String.toList_injective hright⟩

theorem errorLine_append (message message' type inputValue inputType : String) :
    rendering.errorLine (message ++ message') type inputValue inputType =
      message ++ rendering.errorLine message' type inputValue inputType := by
  simp only [errorLine, String.append_assoc]

variable (rendering) in
theorem errorLine_empty (type inputValue inputType : String) :
    ∃ rest, rendering.errorLine "" type inputValue inputType = " " ++ rest := by
  refine ⟨"[type=" ++ type ++ ", input_value=" ++ inputValue ++ ", input_type=" ++ inputType ++
    "]\n    For further information visit " ++ rendering.documentation ++ "/v/" ++ type, ?_⟩
  have hblank : " [type=" = " " ++ "[type=" := by decide +kernel
  simp only [errorLine, hblank, String.append_assoc, String.empty_append]

/-- The message goes on, or the type of the error follows. -/
theorem errorLine_ne (type type' inputValue inputValue' inputType inputType' : String) :
    rendering.errorLine "Input should be a valid string, unable to parse raw data as a unicode string" type inputValue
        inputType ≠ rendering.errorLine "Input should be a valid string" type' inputValue'
          inputType' := by
  intro h
  have hlong : "Input should be a valid string, unable to parse raw data as a unicode string" =
      "Input should be a valid string" ++
        ("," ++ " unable to parse raw data as a unicode string") := by decide +kernel
  have hshort : rendering.errorLine "Input should be a valid string" type' inputValue' inputType' =
      "Input should be a valid string" ++ rendering.errorLine "" type' inputValue' inputType' := by
    rw [← errorLine_append, String.append_empty]
  obtain ⟨rest, hrest⟩ := errorLine_empty rendering type' inputValue' inputType'
  rw [hlong, errorLine_append, errorLine_append, hshort, hrest, String.append_right_inj] at h
  have hhead := congrArg (fun text => text.toList.head?) h
  simp at hhead

theorem stringError_cases (value : PyValue) : stringError value =
      ("Input should be a valid string, unable to parse raw data as a unicode string",
        "string_unicode") ∨
    stringError value = ("Input should be a valid string", "string_type") := by
  cases value with
  | string s => exact Or.inl rfl
  | _ => exact Or.inr rfl

/-- The text about a content says what pydantic shows of it, and nothing else. -/
theorem contentText_inj (content content' : PyValue) :
    rendering.contentText content = rendering.contentText content' ↔
    rendering.shown content = rendering.shown content' := by
  constructor
  · intro h
    rw [contentText_eq, contentText_eq, String.append_right_inj] at h
    have hkind : stringError content = stringError content' := by
      rcases stringError_cases content with hcontent | hcontent <;>
        rcases stringError_cases content' with hcontent' | hcontent' <;>
          rw [hcontent, hcontent'] at h ⊢
      · exact absurd h (errorLine_ne _ _ _ _ _ _)
      · exact absurd h.symm (errorLine_ne _ _ _ _ _ _)
    rw [hkind] at h
    obtain ⟨hvalue, htype⟩ := errorLine_inj (inputType_ne content) (inputType_ne content') h
    simp [shown, hkind, hvalue, htype]
  · intro h
    simp only [shown, Prod.mk.injEq] at h
    obtain ⟨hkind, hvalue, htype⟩ := h
    have hkind : stringError content = stringError content' := by
      rcases stringError_cases content with hcontent | hcontent <;>
        rcases stringError_cases content' with hcontent' | hcontent' <;> simp_all
    simp only [contentText, strError, hkind, hvalue, htype]

/-! ## The other texts -/

variable (rendering) in
/-- The text is not about a content. -/
def Other (text : String) : Prop := ∀ content, text ≠ rendering.contentText content

theorem other_of_head {text : String} (h : text.toList.head? ≠ some '1') :
    rendering.Other text := by
  rintro content rfl
  apply h
  rw [contentText_eq]
  simp

/-- The last letters are not those of an error about a value that is not a text. -/
theorem other_notValid (text : String) :
    rendering.Other (text ++ " is not a valid " ++ "Role") := by
  intro content h
  have hchars := congrArg String.toList h
  rw [contentText_eq, errorLine] at hchars
  rcases stringError_cases content with hcontent | hcontent
  · rw [hcontent, show "string_unicode" = "string_uni" ++ "code" by decide +kernel] at hchars
    simp only [← String.append_assoc] at hchars
    rw [String.toList_append, String.toList_append (t := "code")] at hchars
    exact absurd (List.append_inj_right' hchars (by simp)) (by simp)
  · rw [hcontent, show "string_type" = "string_" ++ "type" by decide +kernel] at hchars
    simp only [← String.append_assoc] at hchars
    rw [String.toList_append, String.toList_append (t := "type")] at hchars
    exact absurd (List.append_inj_right' hchars (by simp)) (by simp)

/-- The number of the errors is what the text begins with. -/
theorem validationText_cancel {title title' : String} {errors errors' : List (String × String)}
    (h : validationText title errors = validationText title' errors') :
    title ++ String.join (errors.map fun error => "\n" ++ error.1 ++ "\n  " ++ error.2) =
      title' ++ String.join (errors'.map fun error => "\n" ++ error.1 ++ "\n  " ++ error.2) := by
  have hchars := congrArg String.toList h
  simp only [validationText] at hchars
  rw [String.toList_append, String.toList_append (s := toString errors'.length)] at hchars
  have hdigits : ∀ n : Nat, (toString n).toList = Nat.toDigits 10 n :=
    fun n => by simp [Nat.repr, toString]
  rw [hdigits, hdigits] at hchars
  obtain ⟨hlength, hrest⟩ := toDigits_cancel (by simp [NoDigit]) (by simp [NoDigit]) hchars
  have hrest := String.toList_injective hrest
  rw [hlength] at hrest
  simpa only [String.append_assoc, String.append_right_inj] using hrest

theorem other_request (errors : List (String × String)) :
    rendering.Other (validationText "InferenceRequest" errors) := by
  intro content h
  have hhead := congrArg (fun text => text.toList.head?) (validationText_cancel h)
  simp at hhead

variable (rendering) in
/-- The computation raises nothing about a content. -/
def RaisesOther {α : Type} (m : Except Raised α) : Prop :=
  Raises (fun x => rendering.Other x.text) m

theorem other_raising {α : Type} {text : DynamicError → String} (m : Except DynamicError α)
    (h : ∀ x, rendering.Other (text x)) : rendering.RaisesOther (raising text m) := by
  cases m with
  | error x => exact Raises.error (h x)
  | ok a => exact Raises.ok a

/-- Most texts begin with a quotation mark. -/
theorem other_quoted (text : String) : rendering.Other ("'" ++ text) := other_of_head (by simp)

theorem other_subscriptText (value : PyValue) : rendering.Other (subscriptText value) := by
  unfold subscriptText
  split
  · exact other_of_head (by decide +kernel)
  · exact other_of_head (by decide +kernel)
  · rw [String.append_assoc]
    exact other_quoted _

theorem other_getItem (key : String) (value : PyValue) :
    rendering.RaisesOther (getItem key value) := by
  refine other_raising _ fun x => ?_
  cases x with
  | keyError key =>
      show rendering.Other ("'" ++ key ++ "'")
      rw [String.append_assoc]
      exact other_quoted _
  | _ => exact other_subscriptText value

theorem other_get (key : String) (value : PyValue) : rendering.RaisesOther (get key value) := by
  refine other_raising _ fun _ => ?_
  rw [String.append_assoc]
  exact other_quoted _

/-! ## The messages -/

def readMessage (rendering : Rendering) (message : PyValue) : Except Raised (Role × PyValue) := do
  let role ← rendering.enumOf "Role" roles (← getItem "role" message)
  let content ← getItem "content" message
  pure (role, content)

def finishMessage (rendering : Rendering) (read : Role × PyValue) : Except Raised Message := do
  let content ← validated "Message" (rendering.strError "content" read.2) (str read.2)
  pure { role := read.1, content }

theorem parseMessage_eq (message : PyValue) :
    rendering.parseMessage message = rendering.readMessage message >>= rendering.finishMessage := by
  simp only [parseMessage, readMessage, finishMessage, bind_assoc, pure_bind]

variable (rendering) in
theorem kind_readMessage (message : PyValue) :
    (rendering.readMessage message).mapError Raised.kind = ModelRouter.readMessage message := by
  simp only [readMessage, ModelRouter.readMessage, getItem, enumOf, mapError_bind, kind_raising]
  rfl

theorem other_readMessage (message : PyValue) :
    rendering.RaisesOther (rendering.readMessage message) :=
  Raises.bind (other_getItem _ _) fun _ =>
    Raises.bind (other_raising _ fun _ => other_notValid _) fun _ =>
    Raises.bind (other_getItem _ _) fun _ => Raises.ok _

variable (rendering) in
theorem finishMessage_text {read : Role × PyValue} (h : (str read.2).isSome) :
    ∃ message, rendering.finishMessage read = .ok message := by
  obtain ⟨content, hcontent⟩ := Option.isSome_iff_exists.mp h
  exact ⟨{ role := read.1, content }, by rw [finishMessage, hcontent]; rfl⟩

theorem finishMessage_content {read : Role × PyValue} (h : ¬ (str read.2).isSome) :
    rendering.finishMessage read = .error ⟨.validationError, rendering.contentText read.2⟩ := by
  rw [finishMessage, Option.not_isSome_iff_eq_none.mp h]
  rfl

theorem badContent_raised {message : PyValue} {x : Raised}
    (h : rendering.readMessage message = .error x)
    (messages : List PyValue) : badContent (message :: messages) = none := by
  have hkind := kind_readMessage rendering message
  rw [h] at hkind
  rw [badContent, ← hkind]
  rfl

theorem badContent_read {message : PyValue} {read : Role × PyValue}
    (h : rendering.readMessage message = .ok read) (messages : List PyValue) :
    badContent (message :: messages) = if (str read.2).isSome then badContent messages
      else some read.2 := by
  have hkind := kind_readMessage rendering message
  rw [h] at hkind
  rw [badContent, ← hkind]
  rfl

theorem mapM_raised {message : PyValue} {x : Raised} (h : rendering.readMessage message = .error x)
    (messages : List PyValue) : (message :: messages).mapM rendering.parseMessage = .error x := by
  rw [List.mapM_cons, parseMessage_eq, h]
  rfl

theorem mapM_text {message : PyValue} {read : Role × PyValue}
    (h : rendering.readMessage message = .ok read)
    (htext : (str read.2).isSome) (messages : List PyValue) :
    ∃ m, (message :: messages).mapM rendering.parseMessage =
      messages.mapM rendering.parseMessage >>= fun l => pure (m :: l) := by
  obtain ⟨m, hm⟩ := finishMessage_text rendering htext
  refine ⟨m, ?_⟩
  rw [List.mapM_cons, parseMessage_eq, h]
  show rendering.finishMessage read >>= _ = _
  rw [hm]
  rfl

theorem mapM_rejected {message : PyValue} {read : Role × PyValue}
    (h : rendering.readMessage message = .ok read)
    (htext : ¬ (str read.2).isSome) (messages : List PyValue) :
    (message :: messages).mapM rendering.parseMessage =
      .error ⟨.validationError, rendering.contentText read.2⟩ := by
  rw [List.mapM_cons, parseMessage_eq, h]
  show rendering.finishMessage read >>= _ = _
  rw [finishMessage_content htext]
  rfl

/-- The messages are rejected for the content that pydantic comes to. -/
theorem mapM_content {messages : List PyValue} {content : PyValue}
    (h : badContent messages = some content) :
    messages.mapM rendering.parseMessage =
      .error ⟨.validationError, rendering.contentText content⟩ := by
  induction messages with
  | nil => simp [badContent] at h
  | cons message messages ih =>
      cases hread : rendering.readMessage message with
      | error x => simp [badContent_raised hread] at h
      | ok read =>
          rw [badContent_read hread] at h
          by_cases htext : (str read.2).isSome
          · rw [if_pos htext] at h
            obtain ⟨m, hm⟩ := mapM_text hread htext messages
            rw [hm, ih h]
            rfl
          · rw [if_neg htext] at h
            obtain rfl := Option.some.inj h
            exact mapM_rejected hread htext messages

/-- Without such a content, they are rejected for something else, if they are. -/
theorem mapM_other {messages : List PyValue} (h : badContent messages = none) :
    rendering.RaisesOther (messages.mapM rendering.parseMessage) := by
  induction messages with
  | nil => exact Raises.ok []
  | cons message messages ih =>
      cases hread : rendering.readMessage message with
      | error x =>
          rw [mapM_raised hread]
          exact Raises.error (other_readMessage message x hread)
      | ok read =>
          rw [badContent_read hread] at h
          by_cases htext : (str read.2).isSome
          · rw [if_pos htext] at h
            obtain ⟨m, hm⟩ := mapM_text hread htext messages
            rw [hm]
            exact (ih h).bind fun _ => Raises.ok _
          · simp [htext] at h

theorem getItem_congr {key : String} {members members' : List (Str × PyValue)}
    (h : lookup key members = lookup key members') :
    getItem key (.object members) = getItem key (.object members') := by
  simp only [getItem, PyValue.getItem, h]
  cases lookup key members' <;> rfl

theorem get_congr {key : String} {members members' : List (Str × PyValue)}
    (h : lookup key members = lookup key members') :
      get key (.object members) = get key (.object members') := by
  simp only [get, PyValue.get, h, typeName]

variable (rendering) in
/-- Messages that differ in the content have the same role, or none for the same reason. -/
theorem readMessage_parallel {message message' : PyValue} (h : SameMessage message message') :
    Parallel (fun read read' => read.1 = read'.1) (rendering.readMessage message)
      (rendering.readMessage message') := by
  cases h with
  | refl => exact (Parallel.refl _).mono fun read read' hread => by rw [hread]
  | @content members members' h =>
      refine Parallel.bind_same (getItem_congr (h.lookup_ne (by decide))) fun role => ?_
      refine Parallel.bind_same rfl fun role => ?_
      rcases h.lookup_same with hsame | ⟨content, content', hcontent, hcontent', -⟩
      · exact Parallel.bind_same (getItem_congr hsame) fun content => Parallel.ok rfl
      · simp only [getItem, PyValue.getItem, hcontent, hcontent']
        exact Parallel.ok rfl

/-- Messages that differ in contents that are texts are rejected alike. -/
theorem mapM_parallel {messages messages' : List PyValue}
    (hsame : List.Forall₂ SameMessage messages messages')
    (h : badContent messages = none) (h' : badContent messages' = none) :
    Parallel (fun l l' => l.length = l'.length) (messages.mapM rendering.parseMessage)
      (messages'.mapM rendering.parseMessage) := by
  induction hsame with
  | nil => exact Parallel.ok rfl
  | @cons message message' messages messages' hmessage _ ih =>
      rcases (readMessage_parallel rendering hmessage).outcome with
        ⟨x, hread, hread'⟩ | ⟨read, read', hread, hread', -⟩
      · rw [mapM_raised hread, mapM_raised hread']
        exact Parallel.error x
      · rw [badContent_read hread] at h
        rw [badContent_read hread'] at h'
        split at h
        · split at h'
          · rename_i htext htext'
            obtain ⟨m, hm⟩ := mapM_text hread htext messages
            obtain ⟨m', hm'⟩ := mapM_text hread' htext' messages'
            rw [hm, hm']
            exact Parallel.bind (ih h h') fun l l' hlength =>
              Parallel.ok (congrArg Nat.succ hlength)
          · simp at h'
        · simp at h

/-! ## The body -/

/-- The requirements of a body and its messages, if the parser comes to them. -/
def reach (rendering : Rendering) (pydantic : Pydantic) (body : PyValue) :
    Except Raised (RoutingRequirements × List PyValue) := do
  let requirementsRaw := (← get "requirements" body).orEmpty
  let requirements ← rendering.parseRequirements pydantic requirementsRaw
  let messages ← iter (← getItem "messages" body)
  pure (requirements, messages)

/-- The rest of the parser. -/
def finish (rendering : Rendering) (body : PyValue) (requirements : RoutingRequirements)
    (messages : List Message) :
    Except Raised InferenceRequest := do
  let applicationId ← getItem "applicationId" body
  let conversationId ← get "conversationId" body
  let idempotencyKey ← get "idempotencyKey" body
  let metadata := (← get "metadata" body).orEmpty
  validated "InferenceRequest"
    (rendering.requestErrors applicationId messages conversationId idempotencyKey metadata)
    (validateRequest applicationId messages requirements conversationId idempotencyKey metadata)

variable {pydantic : Pydantic} {body body' : PyValue}

theorem parseInferenceRequest_eq (body : PyValue) : rendering.parseInferenceRequest pydantic body =
    rendering.reach pydantic body >>= fun reached => reached.2.mapM rendering.parseMessage >>=
      fun messages =>
      rendering.finish body reached.1 messages := by
  simp only [parseInferenceRequest, reach, finish, bind_assoc, pure_bind]

variable (rendering pydantic) in
theorem kind_reach (body : PyValue) :
    (rendering.reach pydantic body).mapError Raised.kind = messagesReached pydantic body := by
  simp only [reach, messagesReached, get, getItem, iter, mapError_bind, kind_raising,
    kind_parseRequirements]
  rfl

theorem contentReached_ok {reached : RoutingRequirements × List PyValue}
    (h : rendering.reach pydantic body = .ok reached) :
      contentReached pydantic body = badContent reached.2 := by
  have hkind := kind_reach rendering pydantic body
  rw [h] at hkind
  rw [contentReached, ← hkind]
  rfl

theorem contentReached_error {x : Raised} (h : rendering.reach pydantic body = .error x) :
    contentReached pydantic body = none := by
  have hkind := kind_reach rendering pydantic body
  rw [h] at hkind
  rw [contentReached, ← hkind]
  rfl

theorem other_finish (requirements : RoutingRequirements) (messages : List Message) :
    rendering.RaisesOther (rendering.finish body requirements messages) :=
  Raises.bind (other_getItem _ _) fun _ => Raises.bind (other_get _ _) fun _ =>
    Raises.bind (other_get _ _) fun _ =>
    Raises.bind (other_get _ _) fun _ => other_raising _ fun _ => other_request _

theorem validated_parallel {α : Type} {title : String} {errors : List (String × String)}
    {o o' : Option α} (h : o.isSome = o'.isSome) :
      Parallel (fun _ _ => True) (validated title errors o) (validated title errors o') := by
  cases o with
  | none =>
      cases o' with
      | none => exact Parallel.error _
      | some a' => cases h
  | some a =>
      cases o' with
      | none => cases h
      | some a' => exact Parallel.ok trivial

section SameBody
variable (hsame : SameBody body body')
include hsame

theorem sameBody_getItem {key : String} (hne : key ≠ "messages") :
    getItem key body = getItem key body' := by
  cases hsame with
  | refl => rfl
  | messages h => exact getItem_congr (h.lookup_ne hne)

theorem sameBody_get {key : String} (hne : key ≠ "messages") : get key body = get key body' := by
  cases hsame with
  | refl => rfl
  | messages h => exact get_congr (h.lookup_ne hne)

theorem messages_parallel :
    Parallel (List.Forall₂ SameMessage) (getItem "messages" body >>= iter)
      (getItem "messages" body' >>= iter) := by
  have hrefl : ∀ m : Except Raised (List PyValue), Parallel (List.Forall₂ SameMessage) m m := by
    refine fun m => (Parallel.refl m).mono fun l l' hl => ?_
    subst hl
    exact List.forall₂_same.mpr fun message _ => SameMessage.refl message
  cases hsame with
  | refl => exact hrefl _
  | messages h =>
      rcases h.lookup_same with hlookup | ⟨messages, messages', hmessages, hmessages', hrelated⟩
      · rw [getItem_congr hlookup]
        exact hrefl _
      · simp only [getItem, PyValue.getItem, hmessages, hmessages']
        cases hrelated with
        | refl => exact hrefl _
        | items hitems => exact Parallel.ok hitems

variable (rendering pydantic) in
theorem reach_parallel : Parallel (fun reached reached' => reached.1 = reached'.1 ∧
    List.Forall₂ SameMessage reached.2 reached'.2) (rendering.reach pydantic body)
      (rendering.reach pydantic body') := by
  refine Parallel.bind_same (sameBody_get hsame (by decide)) fun requirementsRaw => ?_
  refine Parallel.bind_same rfl fun requirements => ?_
  have hmessages := (messages_parallel hsame).bind (S := fun reached reached' =>
      reached.1 = reached'.1 ∧
    List.Forall₂ SameMessage reached.2 reached'.2) fun messages messages' h =>
      Parallel.ok (a := (requirements, messages)) (b := (requirements, messages')) ⟨rfl, h⟩
  rwa [bind_assoc, bind_assoc] at hmessages

theorem finish_parallel (requirements : RoutingRequirements) {messages messages' : List Message}
    (h : messages.length = messages'.length) :
      Parallel (fun _ _ => True) (rendering.finish body requirements messages)
      (rendering.finish body' requirements messages') := by
  refine Parallel.bind_same (sameBody_getItem hsame (by decide)) fun applicationId => ?_
  refine Parallel.bind_same (sameBody_get hsame (by decide)) fun conversationId => ?_
  refine Parallel.bind_same (sameBody_get hsame (by decide)) fun idempotencyKey => ?_
  refine Parallel.bind_same (sameBody_get hsame (by decide)) fun metadata => ?_
  have herrors : rendering.requestErrors applicationId messages conversationId idempotencyKey
      metadata.orEmpty =
      rendering.requestErrors applicationId messages' conversationId idempotencyKey
        metadata.orEmpty := by
    have hempty : messages.isEmpty = messages'.isEmpty := by
      rw [Bool.eq_iff_iff, List.isEmpty_iff_length_eq_zero, List.isEmpty_iff_length_eq_zero, h]
    simp only [requestErrors, hempty]
  dsimp only
  rw [herrors]
  apply validated_parallel
  rw [Bool.eq_iff_iff, Option.isSome_iff_exists, Option.isSome_iff_exists,
    ← requestErrors_eq_nil_iff, herrors,
    requestErrors_eq_nil_iff]

/-- Without a content that is rejected the bodies are rejected alike, or accepted both. -/
theorem parse_parallel (h : contentReached pydantic body = none)
    (h' : contentReached pydantic body' = none) :
    Parallel (fun _ _ => True) (rendering.parseInferenceRequest pydantic body)
      (rendering.parseInferenceRequest pydantic body') := by
  rw [parseInferenceRequest_eq, parseInferenceRequest_eq]
  rcases (reach_parallel rendering pydantic hsame).outcome with
    ⟨x, hreach, hreach'⟩ | ⟨reached, reached', hreach, hreach', hrequirements, hmessages⟩
  · rw [hreach, hreach']
    exact Parallel.error x
  · rw [contentReached_ok hreach] at h
    rw [contentReached_ok hreach'] at h'
    rw [hreach, hreach']
    show Parallel _ (reached.2.mapM rendering.parseMessage >>= _)
        (reached'.2.mapM rendering.parseMessage >>= _)
    refine Parallel.bind (mapM_parallel hmessages h h') fun messages messages' hlength => ?_
    rw [hrequirements]
    exact finish_parallel hsame _ hlength

end SameBody

/-- A body is rejected for the content that pydantic comes to. -/
theorem parse_content {content : PyValue} (h : contentReached pydantic body = some content) :
    rendering.parseInferenceRequest pydantic body =
      .error ⟨.validationError, rendering.contentText content⟩ := by
  rw [parseInferenceRequest_eq]
  cases hreach : rendering.reach pydantic body with
  | error x =>
      rw [contentReached_error hreach] at h
      cases h
  | ok reached =>
      rw [contentReached_ok hreach] at h
      show reached.2.mapM rendering.parseMessage >>= _ = _
      rw [mapM_content h]
      rfl

/-- Without such a content, messages that are reached are rejected for something else, if they
are. -/
theorem parse_other {reached : RoutingRequirements × List PyValue} {x : Raised}
    (hreach : rendering.reach pydantic body = .ok reached) (h : contentReached pydantic body = none)
    (hx : rendering.parseInferenceRequest pydantic body = .error x) : rendering.Other x.text := by
  rw [contentReached_ok hreach] at h
  rw [parseInferenceRequest_eq, hreach] at hx
  exact Raises.bind (mapM_other h) (fun _ => other_finish _ _) x hx

theorem reached_of_content {content : PyValue} (h : contentReached pydantic body = some content) :
    ∃ reached, rendering.reach pydantic body = .ok reached := by
  cases hreach : rendering.reach pydantic body with
  | error x =>
      rw [contentReached_error hreach] at h
      cases h
  | ok reached => exact ⟨reached, rfl⟩

variable (rendering pydantic) in
theorem reached_iff (hsame : SameBody body body') :
    (∃ reached, rendering.reach pydantic body = .ok reached) ↔
    ∃ reached, rendering.reach pydantic body' = .ok reached := by
  rcases (reach_parallel rendering pydantic hsame).outcome with
    ⟨x, hreach, hreach'⟩ | ⟨reached, reached', hreach, hreach', -⟩ <;> simp [hreach, hreach']

/-- **When two rejections have the same text**: what pydantic shows of the first content that is no
text is the same, or there is none. -/
theorem text_eq_iff {x x' : Raised} (hsame : SameBody body body')
    (hx : rendering.parseInferenceRequest pydantic body = .error x)
    (hx' : rendering.parseInferenceRequest pydantic body' = .error x') : x.text = x'.text ↔
      (contentReached pydantic body).map rendering.shown =
        (contentReached pydantic body').map rendering.shown := by
  cases h : contentReached pydantic body with
  | none =>
      cases h' : contentReached pydantic body' with
      | none =>
          rw [(parse_parallel hsame h h').error_eq hx hx']
          simp
      | some content' =>
          obtain ⟨reached, hreach⟩ :=
            (reached_iff rendering pydantic hsame).mpr (reached_of_content h')
          rw [parse_content h'] at hx'
          cases hx'
          exact iff_of_false (parse_other hreach h hx content') (by simp)
  | some content =>
      cases h' : contentReached pydantic body' with
      | none =>
          obtain ⟨reached, hreach⟩ :=
            (reached_iff rendering pydantic hsame).mp (reached_of_content h)
          rw [parse_content h] at hx
          cases hx
          exact iff_of_false (parse_other hreach h' hx' content).symm (by simp)
      | some content' =>
          rw [parse_content h] at hx
          rw [parse_content h'] at hx'
          cases hx
          cases hx'
          simp [contentText_inj]

end Rendering

end ModelRouter
