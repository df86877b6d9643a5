import FieldMask.Json.Text
import FieldMask.Refusal

/-!
The HTTP response to a refused mask. Masks come from the client, so every refusal is a bad request; the
body tells the code, the message, and the blamed field as a detail where there is one.
-/

namespace FieldMask

/-- An HTTP response with a body of text. -/
structure Response where
  status : Nat
  contentType : String
  body : String
deriving DecidableEq, Inhabited, Repr

namespace Refusal

/-- The status of every refusal: bad request. -/
def status (_ : Refusal) : Nat := 400

/-- The body of the response, as a JSON object. -/
def report (refusal : Refusal) : Json :=
  let details := match refusal.field? with
    | some field => [("details", .obj [("field", .str field)])]
    | none => []
  .obj ([("code", .str refusal.code), ("message", .str refusal.message)] ++ details)

/-- The response to the refusal. -/
def response (refusal : Refusal) : Response where
  status := refusal.status
  contentType := "application/json"
  body := refusal.report.text

end Refusal
end FieldMask
