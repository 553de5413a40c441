import RecordQuery.Proofs.Json.Forms
import RecordQuery.Proofs.Quotations
import RecordQuery.Proofs.Requests

/-!
# Reports of faults

The body of the response to a fault is a JSON text that tells the message, the code and the status.
Nothing of the fault is lost in it: the code tells its kind, and behind what all messages of a kind
begin with, the message tells the rest. Texts of the request are quoted there, and the whole message
is written as a string of JSON.
-/

namespace RecordQuery

open Document

/-- A natural number is known from its text. -/
theorem toString_nat_injective : Function.Injective (toString : Nat → String) := by
  intro n m hsame
  rw [← digitsValue_toString n, hsame, digitsValue_toString]

/-- Two numbers are known from their texts behind one another, if what stands between these does not
begin with a digit. -/
theorem toString_append_inj {between : String} {count limit other bound : Nat}
    (hbetween : ∀ text, Text.Stops Char.isDigit (between.toList ++ text))
    (hsame : toString count ++ between ++ toString limit =
      toString other ++ between ++ toString bound) : count = other ∧ limit = bound := by
  have hdigits := congrArg (fun text : String => Number.takeDigits text.toList) hsame
  simp only [String.toList_append, List.append_assoc] at hdigits
  rw [takeDigits_toString _ (hbetween _), takeDigits_toString _ (hbetween _),
    Prod.mk.injEq] at hdigits
  obtain ⟨hcount, hrest⟩ := hdigits
  have hlimit := List.append_cancel_left hrest
  exact ⟨toString_nat_injective (String.toList_inj.mp hcount),
    toString_nat_injective (String.toList_inj.mp hlimit)⟩

namespace Fault

variable {fault other : Fault}

/-- Messages of faults with the same code begin alike. -/
theorem heading_eq_of_code_eq (hcode : fault.code = other.code) :
    fault.heading = other.heading := by
  cases fault <;> cases other <;> simp only [code, String.reduceEq] at hcode <;> rfl

/-- A fault is known from its code and from what its message goes on with. -/
theorem eq_of_code_eq_of_detail_eq (hcode : fault.code = other.code)
    (hdetail : fault.detail = other.detail) : fault = other := by
  -- Only faults of the same kind have the same code.
  cases fault <;> cases other <;> simp only [code, String.reduceEq] at hcode
  case field.field | operator.operator | connective.connective | direction.direction =>
    exact congrArg _ (Text.quote_injective hdetail)
  case request.request | configuration.configuration | record.record =>
    exact congrArg _ hdetail
  case tooDeep.tooDeep =>
    exact congrArg _ (toString_nat_injective hdetail)
  case tooManyNodes.tooManyNodes | tooManyKeys.tooManyKeys =>
    obtain ⟨rfl, rfl⟩ := toString_append_inj (fun _ => Text.stops_cons rfl) hdetail
    rfl

/-- A fault is known from its code and its message. -/
theorem eq_of_code_eq_of_message_eq (hcode : fault.code = other.code)
    (hmessage : fault.message = other.message) : fault = other := by
  rw [message, message, heading_eq_of_code_eq hcode, String.append_right_inj] at hmessage
  exact eq_of_code_eq_of_detail_eq hcode hmessage

/-- The body of a response is read as an object of the message, the code and the status. -/
theorem ofText?_body (fault : Fault) :
    ofText? fault.response.body = some (Form.object [("error", ofString fault.message),
      ("code", ofString fault.code), ("status", .number (.integer fault.response.status))]) :=
  ofText?_write fault.report

/-- Faults whose responses have the same body are the same. -/
theorem eq_of_body_eq (hbody : fault.response.body = other.response.body) : fault = other := by
  have hread := congrArg ofText? hbody
  rw [ofText?_body, ofText?_body] at hread
  simp only [Form.object, ofString, List.map_cons, Option.some.injEq, Json.object.injEq,
    List.cons.injEq, Prod.mk.injEq, Json.string.injEq, true_and] at hread
  obtain ⟨hmessage, hcode, _⟩ := hread
  exact eq_of_code_eq_of_message_eq hcode hmessage

/-- The response to a fault loses nothing of it. Its body is the text of an object of the message,
the code and the status of the response. The status is 400 if the fault lies with the request, and
500 if it does not. No other fault has the same body. -/
theorem response_tells_fault (fault : Fault) :
    ofText? fault.response.body = some (Form.object [("error", ofString fault.message),
      ("code", ofString fault.code), ("status", .number (.integer fault.response.status))]) ∧
    (fault.response.status = 400 ↔ fault.isClientFault = true) ∧
    (fault.response.status = 500 ↔ fault.isClientFault = false) ∧
    ∀ other : Fault, fault.response.body = other.response.body ↔ fault = other := by
  have hstatus : fault.response.status = if fault.isClientFault then 400 else 500 := rfl
  refine ⟨ofText?_body fault, ?_, ?_, fun other => ⟨eq_of_body_eq, fun h => by rw [h]⟩⟩
  · rw [hstatus]
    cases fault.isClientFault <;> simp
  · rw [hstatus]
    cases fault.isClientFault <;> simp

/-- A character that a quotation spells out, and the text that is its spelling. -/
example :
    (field "\u0301").message = "Invalid field: \"\\u\x7b301\x7d\"" ∧
      (field "\\u\x7b301\x7d").message = "Invalid field: \"\\\\u\x7b301\x7d\"" := by
  decide +kernel

end Fault

end RecordQuery
