import AppAdmission.Proofs.Json.Record
import AppAdmission.Proofs.Text.Blank
import AppAdmission.Review

/-!
# Answers that can be read

An answer is written as an envelope that reads back as the same envelope, provided that the code of
its status fits. Nothing in an envelope needs more than integers, so its text and its bytes can be
read as well. A body is taken for an envelope if it is called JSON, in letters of either case and with
or without parameters.
-/

namespace AppAdmission

open Json (Source)

/-- The code of a status fits in the 16 bits that are kept for it. -/
def ReviewResponse.Fits (r : ReviewResponse) : Prop :=
  ∀ status ∈ r.status, ∀ code ∈ status.code, code < 0x10000

/-- The envelope in some bytes. -/
def AdmissionReview.ofBytes? (body : List UInt8) : Option AdmissionReview :=
  (Source.ofBytes? body).bind AdmissionReview.decode

/-- A status whose code fits is read as it was written. -/
theorem ReviewStatus.decode_nested {s : ReviewStatus} {level : Nat}
    (fits : ∀ code ∈ s.code, code < 0x10000) :
    ReviewStatus.decode (Source.nested level s.toJson) = some s := by
  obtain ⟨message, code⟩ := s
  unfold ReviewStatus.decode ReviewStatus.toJson
  rw [Source.record_nested]
  cases code with
  | none => rfl
  | some code =>
    have picked : Source.pick ["message", "code"] ((("message", Json.str message) ::
        Json.optional "code" ((some code).map Json.ofNat)).map
          fun m => (m.1, Source.nested (level + 1) m.2)) =
        some [("message", .str (some message)), ("code", Source.nested (level + 1) (.ofNat code))] :=
      rfl
    have read : Source.smaller 0x10000 (Source.nested (level + 1) (.ofNat code)) = some code :=
      Source.smaller_int (fits code rfl)
    rw [picked, Option.bind_eq_bind, Option.bind_some]
    rw [Source.Fields.optional_of_find rfl (fun h => by cases h) read]
    rfl

/-- The code is the one number in a status. -/
theorem ReviewStatus.integralB_toJson {s : ReviewStatus} (fits : ∀ code ∈ s.code, code < 0x10000) :
    s.toJson.integralB = true := by
  obtain ⟨message, code⟩ := s
  cases code with
  | none => rfl
  | some code =>
    have small : code < 0x10000 := fits code rfl
    have room : Number.fitsB code = true := by
      unfold Number.fitsB
      simp only [Bool.and_eq_true, decide_eq_true_eq]
      constructor <;> omega
    simp [toJson, Json.optional, Json.ofNat, Json.integralB, Json.integralMembersB, room]

/-- The fields of an answer are all found where it was written. -/
theorem ReviewResponse.exists_fields {r : ReviewResponse} (level : Nat) (fits : r.Fits) :
    ∃ fs, Source.record ["uid", "allowed", "patch", "patchType", "status"]
        (Source.nested level r.toJson) = some fs ∧
      fs.need "uid" Source.text = some r.uid ∧ fs.need "allowed" Source.flag = some r.allowed ∧
      fs.optional "patch" Source.text = some r.patch ∧
      fs.optional "patchType" Source.text = some r.patchType ∧
      fs.optional "status" ReviewStatus.decode = some r.status := by
  obtain ⟨uid, allowed, patch, patchType, status⟩ := r
  unfold ReviewResponse.toJson
  rw [Source.record_nested]
  cases status with
  | none => cases patch <;> cases patchType <;> exact ⟨_, rfl, rfl, rfl, rfl, rfl, rfl⟩
  | some status =>
    have read : ReviewStatus.decode (Source.nested (level + 1) status.toJson) = some status :=
      ReviewStatus.decode_nested (fits status rfl)
    have there : Source.nested (level + 1) status.toJson ≠ .null := fun h => by cases h
    cases patch <;> cases patchType <;>
      exact ⟨_, rfl, rfl, rfl, rfl, rfl, Source.Fields.optional_of_find rfl there read⟩

/-- An answer whose code fits is read as it was written. -/
theorem ReviewResponse.decode_nested {r : ReviewResponse} {level : Nat} (fits : r.Fits) :
    ReviewResponse.decode (Source.nested level r.toJson) = some r := by
  obtain ⟨fs, picked, uid, allowed, patch, patchType, status⟩ := exists_fields level fits
  unfold ReviewResponse.decode
  rw [picked, Option.bind_eq_bind, Option.bind_some, uid, allowed, patch, patchType, status]
  rfl

namespace AdmissionReview

theorem decode_nested_respond {apiVersion : String} {r : ReviewResponse} {level : Nat}
    (fits : r.Fits) :
    decode (Source.nested level (respond apiVersion r).toJson) = some (respond apiVersion r) := by
  have read : ReviewResponse.decode (Source.nested (level + 1) r.toJson) = some r :=
    ReviewResponse.decode_nested fits
  have picked : Source.pick ["apiVersion", "kind", "request", "response"]
      ([("apiVersion", Json.str apiVersion), ("kind", .str "AdmissionReview"),
        ("response", r.toJson)].map fun m => (m.1, Source.nested (level + 1) m.2)) =
      some [("apiVersion", .str (some apiVersion)), ("kind", .str (some "AdmissionReview")),
        ("response", Source.nested (level + 1) r.toJson)] := rfl
  have written : (respond apiVersion r).toJson = .obj [("apiVersion", .str apiVersion),
      ("kind", .str "AdmissionReview"), ("response", r.toJson)] := rfl
  unfold decode
  rw [written, Source.record_nested, picked, Option.bind_eq_bind, Option.bind_some,
    Source.Fields.optional_of_find rfl (fun h => by cases h) read]
  rfl

/-- An answer holds no numbers but the code of its status. -/
theorem integralB_respond {apiVersion : String} {r : ReviewResponse} (fits : r.Fits) :
    (respond apiVersion r).toJson.integralB = true := by
  obtain ⟨uid, allowed, patch, patchType, status⟩ := r
  have whole : ∀ s ∈ status, s.toJson.integralB = true :=
    fun s h => ReviewStatus.integralB_toJson (fits s h)
  cases patch <;> cases patchType <;> cases status <;>
    simp_all [respond, toJson, ReviewResponse.toJson, Json.optional, Json.integralB,
      Json.integralMembersB]

/-- The text of an answer reads back as the answer. -/
theorem ofBytes?_render_respond {apiVersion : String} {r : ReviewResponse} (fits : r.Fits) :
    ofBytes? (Utf8.encode (respond apiVersion r).toJson.render.toList) =
      some (respond apiVersion r) := by
  unfold ofBytes? Json.render
  rw [String.toList_ofList, Source.ofBytes?_encode_renderChars (integralB_respond fits)]
  exact decode_nested_respond fits

end AdmissionReview

/-- The texts that name JSON: the media type in letters of either case, white space around it, and then
nothing or parameters. -/
theorem isJsonContentType_iff {value : String} : isJsonContentType value = true ↔
    ∃ pad media pad' params, value.toList = pad ++ media ++ pad' ++ params ∧
      media.map Text.lowerAscii = "application/json".toList ∧ (∀ c ∈ pad, Text.isBlank c = true) ∧
      (∀ c ∈ pad', Text.isBlank c = true) ∧ ∀ c ∈ params.head?, c = ';' := by
  unfold isJsonContentType
  rw [beq_iff_eq]
  constructor
  · intro json
    obtain ⟨pad, pad', whole, blank, blank'⟩ := Text.exists_trim (value.toList.takeWhile (· != ';'))
    refine ⟨pad, _, pad', value.toList.dropWhile (· != ';'), ?_, json, blank, blank', fun c first => ?_⟩
    · rw [← whole, List.takeWhile_append_dropWhile]
    · have stop := List.head?_dropWhile_not (· != ';') value.toList
      rw [Option.mem_def.1 first] at stop
      simpa using stop
  · rintro ⟨pad, media, pad', params, whole, json, blank, blank', first⟩
    have letter {c : Char} (there : c ∈ media) : Text.lowerAscii c ∈ "application/json".toList :=
      json ▸ List.mem_map_of_mem there
    have clean : ("application/json".toList.all fun c => !Text.isBlank c) = true := by decide
    have solid : ∀ c ∈ media, Text.isBlank c = false := by
      intro c there
      refine Bool.eq_false_iff.2 fun blank => ?_
      have within := letter there
      rw [Text.lowerAscii_of_isBlank blank] at within
      have other := List.all_eq_true.1 clean c within
      rw [blank] at other
      cases other
    have inside : ∀ c ∈ pad ++ media ++ pad', (c != ';') = true := by
      intro c there
      rw [bne_iff_ne]
      rintro rfl
      simp only [List.mem_append] at there
      rcases there with (there | there) | there
      · cases blank _ there
      · exact absurd (letter there) (by decide)
      · cases blank' _ there
    have front : value.toList.takeWhile (· != ';') = pad ++ media ++ pad' := by
      rw [whole, List.takeWhile_append_of_pos inside]
      cases params with
      | nil => simp
      | cons c rest => simp [first c rfl]
    rw [front, Text.trim_surrounded blank blank', Text.trim_of_solid solid, json]

end AppAdmission
