import AppAdmission.Proofs.Admission.Decide
import AppAdmission.Proofs.Patch.Written
import AppAdmission.Proofs.Review
import AppAdmission.Proofs.Text.Base64

/-!
# Answers with patches

A patch travels as a text within the text of an answer: JSON as bytes, bytes as Base64, and that as a
string of JSON again. Each layer reads what it wrote. The one thing that does not survive is a value
that looks like an embedded text, because the reader of free values puts the value of the text in its
place.
-/

namespace AppAdmission

open Json (Source)

namespace ReviewResponse

/-- The text of an answer with a patch is read as the same envelope, and the answer in it has the message
and the patch. -/
def ComesBack (apiVersion : String) (r : ReviewResponse) (message : Option String)
    (ops : List Patch.Operation) : Prop :=
  ∃ back response,
    AdmissionReview.ofBytes? (Utf8.encode
      (AdmissionReview.respond apiVersion (r.withPatch ops)).toJson.render.toList) = some back ∧
    back = AdmissionReview.respond apiVersion (r.withPatch ops) ∧ back.response = some response ∧
    response.message? = message ∧ response.decodePatch = .ok ops

/-- The text of a patch whose values can be kept is read as the patch. -/
theorem decodePatch_encodePatch {r : ReviewResponse} {ops : List Patch.Operation}
    (integral : Patch.Integral ops) (plain : Patch.Plain ops)
    (shallow : (Patch.toJson ops).depth ≤ Source.maxDepth)
    (attached : r.patch = some (encodePatch ops)) : r.decodePatch = .ok ops := by
  have letters : Base64.decode? (encodePatch ops).toList =
      some (Utf8.encode (Patch.toJson ops).renderChars) := by
    unfold encodePatch
    rw [String.toList_ofList, Base64.decode?_encode]
  have tree : Source.ofBytes? (Utf8.encode (Patch.toJson ops).renderChars) =
      some (Source.nested 1 (Patch.toJson ops)) :=
    Source.ofBytes?_encode_renderChars (Patch.integralB_toJson integral)
  unfold decodePatch
  simp only [attached, letters, tree, Option.bind_some, Patch.decode_nested integral plain shallow]

/-- An answer without a patch whose code fits comes back with any patch whose values can be kept. -/
theorem comesBack {r : ReviewResponse} {ops : List Patch.Operation} (apiVersion : String)
    (fits : r.Fits) (bare : r.patch = none) (integral : Patch.Integral ops) (plain : Patch.Plain ops)
    (shallow : (Patch.toJson ops).depth ≤ Source.maxDepth) :
    ComesBack apiVersion r r.message? ops := by
  have fits' : (r.withPatch ops).Fits := by
    unfold Fits
    rw [Webhook.status_withPatch]
    exact fits
  have message : (r.withPatch ops).message? = r.message? := by
    unfold message?
    rw [Webhook.status_withPatch]
  refine ⟨_, _, AdmissionReview.ofBytes?_render_respond fits', rfl, rfl, message, ?_⟩
  by_cases nothing : ops = []
  · subst nothing
    have kept : r.withPatch [] = r := rfl
    unfold decodePatch
    rw [kept, bare]
  · rw [Webhook.withPatch_of_ne_nil r nothing]
    exact decodePatch_encodePatch integral plain shallow rfl

/-- **Answers come back.** Whatever the texts, the code and the operations, the text of an admission or a
refusal with the operations is read as the same envelope, with the exact message and exactly the
operations, none included; provided that the values of the operations hold no numbers but integers of 64
bits, that the array of operations is nested no deeper than 127 levels, and that no object in a value
has the key of embedded texts as its first one. -/
theorem respond_comesBack (uid apiVersion message : String) (code : UInt16)
    {ops : List Patch.Operation} (integral : Patch.Integral ops)
    (shallow : (Patch.toJson ops).depth ≤ 127) (plain : Patch.Plain ops) :
    ComesBack apiVersion (allow uid) none ops ∧
      ComesBack apiVersion (deny uid message code.toNat) (some message) ops := by
  have allowed : (allow uid).Fits := nofun
  have denied : (deny uid message code.toNat).Fits := by
    intro status there
    cases there
    intro given same
    cases same
    exact code.toNat_lt
  exact ⟨comesBack apiVersion allowed rfl integral plain shallow,
    comesBack apiVersion denied rfl integral plain shallow⟩

/-- A refusal with quotes, controls and operations of every kind comes back. -/
theorem respond_comesBack_sample :
    ComesBack "v1" (deny "u" "\"no\"\n\u0001" 403) (some "\"no\"\n\u0001")
      [.remove "/x", .replace "/é" (.obj [("a", .arr [.null, .str "\u2028"]), ("z", .ofInt (-1))]),
        .add "/metadata/labels" (.obj [])] :=
  (respond_comesBack "u" "v1" "\"no\"\n\u0001" 403 (by decide) (by decide) (by decide)).2

/-- A value that looks like an embedded text comes back as the value of the text. -/
theorem not_comesBack_embedded :
    ¬∀ (uid apiVersion message : String) (code : UInt16) (ops : List Patch.Operation),
      Patch.Integral ops → (Patch.toJson ops).depth ≤ 127 →
      ComesBack apiVersion (allow uid) none ops ∧
        ComesBack apiVersion (deny uid message code.toNat) (some message) ops := by
  intro all
  let ops : List Patch.Operation := [.add "/a" (.obj [(Source.embeddedKey, .str "1")])]
  obtain ⟨⟨back, response, -, rfl, there, -, patch⟩, -⟩ := all "u" "v1" "no" 403 ops (by decide) (by decide)
  cases there
  have read : (decodePatch ((allow "u").withPatch ops)).toOption = some [.add "/a" (.ofInt 1)] := by
    decide +kernel
  rw [patch] at read
  exact absurd read (by decide)

end ReviewResponse

end AppAdmission
