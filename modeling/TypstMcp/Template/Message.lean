/-
Template.Message -- a bounded message, byte by byte

`writeStrBytes` looks for a boundary in the bytes of a text and cuts there; it is
`writeStr`, so it never panics (`writeStrBytes_eq`).  Any calls leave the message one
call with the whole text leaves (`calls_joined`): the characters of it that fit.  How an
error is cut into pieces when it is displayed therefore makes no difference
(`validateBytes_eq`).
-/
import TypstMcp.Theory.Utf8
import TypstMcp.Template.Assemble

namespace TypstMcp.Template

open TypstMcp.Bundle TypstMcp.Theory TypstMcp.Theory.Json TypstMcp.Theory.Utf8

set_option autoImplicit false
set_option linter.dupNamespace false

variable {F : Type}

namespace BoundedMessage

/-! ## What fits -/

theorem fitting_prefix (room : Nat) (chars : List Char) : fitting room chars <+: chars := by
  induction chars generalizing room with
  | nil => exact List.prefix_refl _
  | cons c rest ih =>
      rw [fitting]
      split_ifs
      · exact List.cons_prefix_cons.2 ⟨rfl, ih _⟩
      · exact List.nil_prefix

theorem fitting_zero (chars : List Char) : fitting 0 chars = [] := by
  cases chars with
  | nil => rfl
  | cons c rest => exact if_neg (Nat.not_le.2 c.utf8Size_pos)

/-- A text that fits leaves its room to the next one. -/
theorem fitting_append {room : Nat} {front : List Char} (back : List Char)
    (fits : (String.ofList front).utf8ByteSize ≤ room) :
    fitting room (front ++ back) =
      front ++ fitting (room - (String.ofList front).utf8ByteSize) back := by
  induction front generalizing room with
  | nil => simp
  | cons c rest ih =>
      rw [String.ofList_cons, String.utf8ByteSize_append, String.utf8ByteSize_singleton] at fits ⊢
      rw [List.cons_append, fitting, if_pos (by omega), ih (by omega), List.cons_append,
        Nat.sub_sub]

/-- A text that does not fit leaves nothing to the next one. -/
theorem fitting_full {room : Nat} {front : List Char} (back : List Char)
    (full : room < (String.ofList front).utf8ByteSize) :
    fitting room (front ++ back) = fitting room front := by
  induction front generalizing room with
  | nil => simp at full
  | cons c rest ih =>
      rw [String.ofList_cons, String.utf8ByteSize_append, String.utf8ByteSize_singleton] at full
      rw [List.cons_append, fitting, fitting]
      split_ifs with here
      · rw [ih (by omega)]
      · rfl

/-! ## One call -/

/-- `write_str`; `none` would be a panic: the search below position 0, or a slice that is no
text. -/
def writeStrBytes (message : BoundedMessage) (text : String) : Option (BoundedMessage × Bool) :=
  if text.utf8ByteSize ≤ message.remaining then
    some ({ value := message.value ++ text, remaining := message.remaining - text.utf8ByteSize },
      true)
  else do
    let stop ← searchBack (utf8 text) (min message.remaining text.utf8ByteSize)
    let front ← fromUtf8 ((utf8 text).take stop)
    return ({ value := message.value ++ front, remaining := 0 }, false)

/-- The search ends where what fits ends. -/
theorem searchBack_fitting {room : Nat} {chars : List Char}
    (inside : room ≤ (encode chars).length) :
    searchBack (encode chars) room = some (encode (fitting room chars)).length := by
  induction chars generalizing room with
  | nil =>
      obtain rfl : room = 0 := Nat.le_zero.1 inside
      rfl
  | cons c rest ih =>
      rw [searchBack_cons, fitting]
      by_cases here : c.utf8Size ≤ room
      · have behind : room - c.utf8Size ≤ (encode rest).length := by
          rw [encode_cons, List.length_append, String.length_utf8EncodeChar] at inside
          omega
        rw [if_neg (Nat.not_lt.2 here), if_pos here, ih behind, encode_cons, List.length_append,
          String.length_utf8EncodeChar]
        rfl
      · rw [if_pos (Nat.not_le.1 here), if_neg here]
        rfl

/-- **No call panics, and each writes the characters that fit.** -/
theorem writeStrBytes_eq (message : BoundedMessage) (text : String) :
    message.writeStrBytes text = some (message.writeStr text) := by
  unfold writeStrBytes writeStr
  split_ifs with fits
  · rfl
  · have size : (encode text.toList).length = text.utf8ByteSize := by
      rw [encode_length, String.ofList_toList]
    have stop : searchBack (utf8 text) (min message.remaining text.utf8ByteSize) =
        some (encode (fitting message.remaining text.toList)).length := by
      rw [utf8_toList, Nat.min_eq_left (Nat.le_of_lt (Nat.not_le.1 fits))]
      exact searchBack_fitting (by omega)
    have front : (utf8 text).take (encode (fitting message.remaining text.toList)).length =
        utf8 (String.ofList (fitting message.remaining text.toList)) := by
      obtain ⟨more, whole⟩ := fitting_prefix message.remaining text.toList
      have bytes := encode_append (fitting message.remaining text.toList) more
      rw [whole] at bytes
      rw [utf8_ofList, utf8_toList, bytes, List.take_left]
    rw [stop, Option.bind_eq_bind, Option.bind_some, front, fromUtf8_utf8]
    rfl

/-! ## Many calls -/

/-- The calls in turn, going on after those that fail, and whether each succeeded. -/
def calls (message : BoundedMessage) : List String → Option (BoundedMessage × List Bool)
  | [] => some (message, [])
  | text :: rest => do
      let (next, ok) ← message.writeStrBytes text
      let (last, oks) ← next.calls rest
      return (last, ok :: oks)

/-- A call succeeds when its text fits. -/
theorem writeStr_ok (message : BoundedMessage) (text : String) :
    (message.writeStr text).2 = true ↔ text.utf8ByteSize ≤ message.remaining := by
  unfold writeStr
  split_ifs with fits <;> simp [fits]

theorem writeStr_fits {message : BoundedMessage} {text : String}
    (fits : text.utf8ByteSize ≤ message.remaining) :
    message.writeStr text =
      ({ value := message.value ++ text
         remaining := message.remaining - text.utf8ByteSize }, true) :=
  if_pos fits

theorem writeStr_full {message : BoundedMessage} {text : String}
    (full : ¬ text.utf8ByteSize ≤ message.remaining) :
    message.writeStr text =
      ({ value := message.value ++ String.ofList (fitting message.remaining text.toList)
         remaining := 0 }, false) :=
  if_neg full

/-- Where nothing remains nothing is written. -/
theorem writeStr_closed {message : BoundedMessage} (closed : message.remaining = 0)
    (text : String) : (message.writeStr text).1 = message := by
  obtain ⟨value, remaining⟩ := message
  obtain rfl : remaining = 0 := closed
  by_cases empty : text.utf8ByteSize ≤ 0
  · rw [writeStr_fits empty, String.utf8ByteSize_eq_zero_iff.1 (Nat.le_zero.1 empty)]
    simp only [String.append_empty, String.utf8ByteSize_empty, Nat.sub_zero]
  · rw [writeStr_full empty, fitting_zero, String.ofList_nil, String.append_empty]

/-- **Two calls, whatever they return, leave what one call with both texts leaves.** -/
theorem writeStr_append (message : BoundedMessage) (front back : String) :
    ((message.writeStr front).1.writeStr back).1 = (message.writeStr (front ++ back)).1 := by
  have text : String.ofList front.toList = front := String.ofList_toList
  have size : (front ++ back).utf8ByteSize = front.utf8ByteSize + back.utf8ByteSize :=
    String.utf8ByteSize_append
  by_cases first : front.utf8ByteSize ≤ message.remaining
  · rw [writeStr_fits first]
    by_cases second : back.utf8ByteSize ≤ message.remaining - front.utf8ByteSize
    · rw [writeStr_fits second, writeStr_fits (by omega), size, String.append_assoc, Nat.sub_sub]
    · have fits := fitting_append back.toList (text.symm ▸ first)
      rw [text] at fits
      rw [writeStr_full second, writeStr_full (by omega), String.toList_append, fits,
        String.ofList_append, text, String.append_assoc]
  · have full := fitting_full back.toList (text.symm ▸ Nat.not_le.1 first)
    have both : ¬ (front ++ back).utf8ByteSize ≤ message.remaining := by omega
    rw [writeStr_full first, writeStr_full both, String.toList_append, full]
    exact writeStr_closed rfl back

/-- **Any calls leave what one call with the whole text leaves,** and all succeed when it
fits. -/
theorem calls_joined (message : BoundedMessage) (texts : List String) :
    ∃ oks, message.calls texts = some ((message.writeStr (String.join texts)).1, oks) ∧
      ((∀ ok ∈ oks, ok = true) ↔ (String.join texts).utf8ByteSize ≤ message.remaining) := by
  induction texts generalizing message with
  | nil => exact ⟨[], by simp [calls, writeStr], by simp⟩
  | cons text rest ih =>
      obtain ⟨oks, ran, all⟩ := ih (message.writeStr text).1
      refine ⟨(message.writeStr text).2 :: oks, ?_, ?_⟩
      · rw [calls, writeStrBytes_eq, String.join_cons, ← writeStr_append]
        exact Option.bind_eq_some_iff.2 ⟨_, rfl, Option.bind_eq_some_iff.2 ⟨_, ran, rfl⟩⟩
      · rw [List.forall_mem_cons, writeStr_ok, all, String.join_cons, String.utf8ByteSize_append]
        by_cases fits : text.utf8ByteSize ≤ message.remaining
        · rw [writeStr_fits fits]
          show _ ∧ _ ≤ message.remaining - text.utf8ByteSize ↔ _
          omega
        · rw [writeStr_full fits]
          show _ ∧ _ ≤ 0 ↔ _
          omega

/-- A message of this limit, before any call. -/
def new (limit : Nat) : BoundedMessage := { remaining := limit }

/-- What calls with these texts, in turn, do to a message of this limit. -/
structure Clean (limit : Nat) (texts : List String) (message : BoundedMessage)
    (oks : List Bool) : Prop where
  /-- None of the calls panics. -/
  ran : (new limit).calls texts = some (message, oks)
  cut : message.value.toList <+: (String.join texts).toList
  within : message.value.utf8ByteSize ≤ limit
  whole : (∀ ok ∈ oks, ok = true) → message.value = String.join texts
  stays : false ∈ oks → ∀ more, ∃ later oks',
    (new limit).calls (texts ++ more) = some (later, oks') ∧ later.value = message.value

theorem writeStr_new (limit : Nat) (text : String) :
    ((new limit).writeStr text).1.value = String.ofList (fitting limit text.toList) := by
  unfold writeStr new
  split_ifs with fits
  · have same : String.ofList text.toList = text := String.ofList_toList
    have all : fitting limit (text.toList ++ []) = text.toList ++ _ :=
      fitting_append [] (same.symm ▸ fits)
    rw [List.append_nil] at all
    rw [all, fitting, List.append_nil, same, String.empty_append]
  · rw [String.empty_append]

theorem calls_clean (limit : Nat) (texts : List String) :
    ∃ message oks, Clean limit texts message oks := by
  obtain ⟨oks, ran, all⟩ := calls_joined (new limit) texts
  refine ⟨_, oks, ran, ?_, ?_, ?_, ?_⟩
  · rw [writeStr_new, String.toList_ofList]
    exact fitting_prefix _ _
  · rw [writeStr_new]
    exact fitting_size _ _
  · intro succeeded
    rw [writeStr_fits (all.1 succeeded)]
    exact String.empty_append
  · intro failed more
    obtain ⟨oks', later, -⟩ := calls_joined (new limit) (texts ++ more)
    have full : limit < (String.ofList (String.join texts).toList).utf8ByteSize := by
      rw [String.ofList_toList]
      refine Nat.not_le.1 fun fits => ?_
      cases all.2 fits false failed
    exact ⟨_, oks', later, by
      rw [writeStr_new, writeStr_new, String.join_append, String.toList_append,
        fitting_full _ full]⟩

/-- A call that ends inside a character drops it whole, and the room left with it. -/
example : ((new 3).calls ["a", "é€", "b", ""]).map (fun run => (run.1.value, run.2)) =
    some ("aé", [true, false, false, true]) := by decide +kernel

/-! ## The message of a schema violation -/

/-- `write!`: the calls that displaying its arguments makes, up to the first that fails. -/
def writeFmt (message : BoundedMessage) : List String → Option BoundedMessage
  | [] => some message
  | text :: rest => do
      let (next, ok) ← message.writeStrBytes text
      if ok then next.writeFmt rest else some next

/-- One error, displayed in these pieces. -/
def writeErrorBytes (message : BoundedMessage) (display : SchemaError → List String)
    (error : SchemaError) : Option BoundedMessage :=
  if error.instancePath = "" then message.writeFmt (display error)
  else message.writeFmt (error.instancePath :: ": " :: display error)

def writeErrorsBytes (display : SchemaError → List String) (message : BoundedMessage) :
    List SchemaError → Option BoundedMessage
  | [] => some message
  | error :: rest => do
      let (next, ok) ← message.writeStrBytes "; "
      if ok = false then return next
      else
        let next ← next.writeErrorBytes display error
        if next.remaining = 0 then return next else next.writeErrorsBytes display rest

theorem writeAll_joined (message : BoundedMessage) (texts : List String) :
    message.writeAll texts = (message.writeStr (String.join texts)).1 := by
  induction texts generalizing message with
  | nil => simp [writeAll, writeStr]
  | cons text rest ih =>
      rw [writeAll, String.join_cons, ← writeStr_append]
      by_cases fits : text.utf8ByteSize ≤ message.remaining
      · rw [writeStr_fits fits]
        exact ih _
      · -- what follows a text that failed is not written, and would not be
        rw [writeStr_full fits]
        exact (writeStr_closed rfl _).symm

theorem writeFmt_eq (message : BoundedMessage) (texts : List String) :
    message.writeFmt texts = some (message.writeAll texts) := by
  induction texts generalizing message with
  | nil => rfl
  | cons text rest ih =>
      rw [writeFmt, writeStrBytes_eq, Option.bind_eq_bind, Option.bind_some, writeAll]
      simp only []
      split_ifs
      · exact ih _
      · rfl

end BoundedMessage

/-- The error as it reads when displayed. -/
def SchemaError.shown (display : SchemaError → List String) (error : SchemaError) : SchemaError :=
  { error with message := String.join (display error) }

namespace BoundedMessage

variable (display : SchemaError → List String)

theorem writeErrorBytes_eq (message : BoundedMessage) (error : SchemaError) :
    message.writeErrorBytes display error = some (message.writeError (error.shown display)) := by
  unfold writeErrorBytes writeError SchemaError.shown
  split_ifs
  · simp only [writeFmt_eq, writeAll_joined, String.join_cons, String.join_nil,
      String.append_empty]
  · simp only [writeFmt_eq, writeAll_joined, String.join_cons, String.join_nil,
      String.append_empty]

theorem writeErrorsBytes_eq (message : BoundedMessage) (errors : List SchemaError) :
    message.writeErrorsBytes display errors =
      some (message.writeErrors (errors.map (SchemaError.shown display))) := by
  induction errors generalizing message with
  | nil => rfl
  | cons error rest ih =>
      rw [writeErrorsBytes, writeStrBytes_eq, Option.bind_eq_bind, Option.bind_some,
        List.map_cons, writeErrors]
      simp only []
      split_ifs with failed full
      · rfl
      · rw [writeErrorBytes_eq, Option.bind_eq_bind, Option.bind_some, if_pos full]
        rfl
      · rw [writeErrorBytes_eq, Option.bind_eq_bind, Option.bind_some, if_neg full]
        exact ih _

end BoundedMessage

/-- The text of a schema violation, written call by call. -/
def schemaMessageBytes (display : SchemaError → List String) (first : SchemaError)
    (rest : List SchemaError) : Option String := do
  let message ← (BoundedMessage.new maxSchemaDiagnosticBytes).writeErrorBytes display first
  let message ← (if message.remaining = 0 then some message
    else message.writeErrorsBytes display (rest.take (maxSchemaErrors - 1)))
  if maxSchemaErrors ≤ rest.length ∧ 0 < message.remaining then
    let (message, _) ← message.writeStrBytes "; additional validation errors omitted"
    return message.value
  else return message.value

/-- **The calls never panic, and the pieces an error is displayed in make no difference.** -/
theorem schemaMessageBytes_eq (display : SchemaError → List String) (first : SchemaError)
    (rest : List SchemaError) :
    schemaMessageBytes display first rest =
      some (schemaMessage (first.shown display) (rest.map (SchemaError.shown display))) := by
  have more : ∀ message : BoundedMessage,
      (if message.remaining = 0 then some message
        else message.writeErrorsBytes display (rest.take (maxSchemaErrors - 1))) =
      some (if message.remaining = 0 then message
        else message.writeErrors
          ((rest.map (SchemaError.shown display)).take (maxSchemaErrors - 1))) := by
    intro message
    split_ifs
    · rfl
    · rw [BoundedMessage.writeErrorsBytes_eq, List.map_take]
  have last : ∀ message : BoundedMessage,
      (if maxSchemaErrors ≤ rest.length ∧ 0 < message.remaining then
        (message.writeStrBytes "; additional validation errors omitted").bind
          fun next => some next.1.value
        else some message.value) =
      some (if maxSchemaErrors ≤ rest.length ∧ 0 < message.remaining then
        (message.writeStr "; additional validation errors omitted").1.value
        else message.value) := by
    intro message
    split_ifs
    · rw [BoundedMessage.writeStrBytes_eq]
      rfl
    · rfl
  unfold schemaMessageBytes schemaMessage
  rw [BoundedMessage.writeErrorBytes_eq, Option.bind_eq_bind, Option.bind_some, more,
    Option.bind_eq_bind, Option.bind_some, List.length_map]
  exact last _

/-- `validate`, with its message written call by call. -/
def Template.validateBytes (template : Template F) (crates : Crates F)
    (display : SchemaError → List String) (data : Value F) :
    Option (Except TemplateError Unit) :=
  match template.schema with
  | none => some (.ok ())
  | some schema =>
      match crates.validatorFor schema with
      | .error e => some (.error (.badSchema ["schema.json"] e))
      | .ok errors =>
          match errors data with
          | [] => some (.ok ())
          | first :: rest => (schemaMessageBytes display first rest).map (.error <| .schemaViolation ·)

/-- Displayed in any pieces that make up their messages, the errors give `validate`'s answer. -/
theorem Template.validateBytes_eq (template : Template F) (crates : Crates F)
    {display : SchemaError → List String} (data : Value F)
    (whole : ∀ error, String.join (display error) = error.message) :
    template.validateBytes crates display data = some (template.validate crates data) := by
  have same : SchemaError.shown display = id := by
    funext error
    rw [SchemaError.shown, whole]
    rfl
  unfold Template.validateBytes Template.validate
  cases template.schema with
  | none => rfl
  | some schema =>
      simp only []
      cases crates.validatorFor schema with
      | error e => rfl
      | ok errors =>
          simp only []
          cases errors data with
          | nil => rfl
          | cons first rest =>
              simp only [schemaMessageBytes_eq, same, id, List.map_id]
              rfl

theorem Template.validateBytes_bounded (template : Template F) (crates : Crates F)
    (display : SchemaError → List String) (data : Value F) :
    ∃ outcome, template.validateBytes crates display data = some outcome ∧
      ∀ message, outcome = .error (.schemaViolation message) →
        message.utf8ByteSize ≤ maxSchemaDiagnosticBytes := by
  unfold Template.validateBytes
  cases template.schema with
  | none => exact ⟨_, rfl, fun _ none_ => by cases none_⟩
  | some schema =>
      simp only []
      cases crates.validatorFor schema with
      | error e => exact ⟨_, rfl, fun _ none_ => by cases none_⟩
      | ok errors =>
          simp only []
          cases errors data with
          | nil => exact ⟨_, rfl, fun _ none_ => by cases none_⟩
          | cons first rest =>
              simp only [schemaMessageBytes_eq]
              refine ⟨_, rfl, ?_⟩
              intro message returned
              obtain rfl := TemplateError.schemaViolation.inj (Except.error.inj returned)
              exact schemaMessage_bounded _ _

theorem Template.validate_bounded (template : Template F) (crates : Crates F) (data : Value F)
    (message : String) (refused : template.validate crates data = .error (.schemaViolation message)) :
    message.utf8ByteSize ≤ maxSchemaDiagnosticBytes := by
  obtain ⟨outcome, answered, bounded⟩ :=
    template.validateBytes_bounded crates (fun error => [error.message]) data
  rw [template.validateBytes_eq crates data fun error => by simp] at answered
  exact bounded message (Option.some.inj answered ▸ refused)

/-- **Bounded messages are clean prefixes,** after any calls, and so a schema violation's message
never exceeds its limit, in whatever pieces the errors are displayed. -/
theorem bounded_messages_clean (limit : Nat) (texts : List String) (template : Template F)
    (crates : Crates F) (display : SchemaError → List String) (data : Value F) :
    (∃ message oks, BoundedMessage.Clean limit texts message oks) ∧
      (∃ outcome, template.validateBytes crates display data = some outcome ∧
        ∀ message, outcome = .error (.schemaViolation message) →
          message.utf8ByteSize ≤ maxSchemaDiagnosticBytes) ∧
      ∀ message, template.validate crates data = .error (.schemaViolation message) →
        message.utf8ByteSize ≤ maxSchemaDiagnosticBytes :=
  ⟨BoundedMessage.calls_clean limit texts, template.validateBytes_bounded crates display data,
    template.validate_bounded crates data⟩

end TypstMcp.Template
