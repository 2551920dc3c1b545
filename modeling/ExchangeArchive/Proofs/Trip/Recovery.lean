import ExchangeArchive.Proofs.Text.Base64
import ExchangeArchive.Proofs.Text.Decoding
import ExchangeArchive.Trip.Report
/-
**The octets of a body are recovered from its record.**

A record has the text of a body and its size, and nothing that says whether the text is the body
itself or Base64. The size says it: a body that is UTF-8 is as long as its text, and Base64 is
longer than the octets that it is written for, unless there are none, and no octets are UTF-8. So
whoever reads a record tries the first and, if the lengths do not agree, the second (`recover?`).

The text alone is not enough: the Base64 of one body can be the text of another
(`same_text_of_two_bodies`).
-/

set_option autoImplicit false

namespace ExchangeArchive.Trip

open ExchangeArchive.Archive ExchangeArchive.Body ExchangeArchive.Http ExchangeArchive.Text

/-- The octets that a recorded text of a body of some size stands for: its own, if they are so
many, and those that it is the Base64 of if they are not. -/
def recover? (text : String) (size : Int) : Option (List UInt8) :=
  if (Utf8.encode text.toList).length = size then some (Utf8.encode text.toList)
  else Base64.decode? text.toList

/-- **A body is recovered from its text and its length.** The text alone does not tell whether it is
the body or the Base64 of it; the length does, since Base64 is longer than what it is of. -/
theorem recover?_encodeBody (octets : List UInt8) :
    recover? (encodeBody octets) octets.length = some octets := by
  rw [recover?, encodeBody, String.toList_ofList]
  cases hdecode : Utf8.decode? octets with
  | some cs =>
    have hoctets : Utf8.encode cs = octets := Utf8.encode_of_decode? hdecode
    dsimp only
    rw [hoctets, if_pos rfl]
  | none =>
    -- The empty body is UTF-8, so this one has octets, and its Base64 has more of them.
    have hne : octets ≠ [] := by
      rintro rfl
      rw [Utf8.decode?] at hdecode
      cases hdecode
    have hpos : 0 < octets.length := List.length_pos_iff.mpr hne
    have hlength : ¬((Utf8.encode (Base64.encode octets)).length : Int) = octets.length := by
      rw [Base64.length_encode_utf8]
      omega
    dsimp only
    rw [if_neg hlength]
    exact Base64.decode?_encode octets

/-- A body that is recovered from its record is the only one with that record. -/
theorem encodeBody_injective :
    Function.Injective fun octets : List UInt8 => (encodeBody octets, octets.length) := by
  intro a b hab
  obtain ⟨htext, hlength⟩ := Prod.mk.inj hab
  have ha := recover?_encodeBody a
  rw [htext, hlength, recover?_encodeBody b] at ha
  exact (Option.some.inj ha).symm

/-- Two bodies can have the same text: one is written in Base64, and the other is that Base64. -/
theorem same_text_of_two_bodies :
    ∃ a b : List UInt8, a ≠ b ∧ encodeBody a = encodeBody b :=
  ⟨[0xFF], [0x2F, 0x77, 0x3D, 0x3D], by decide, by decide +kernel⟩

/-- **The bodies of an exchange are recovered from its entry.** The text and the length of a body
are those of no other body, though its text alone can be; if the text takes as many octets as the
length says it is the body, and if not the body is what it is the Base64 of. These are what an
entry has of the observed bodies: the text of `postData` with the size of the request's body, and
the text and the size of `content`, which is also the size of the response's body. -/
theorem recorded_bodies_recovered :
    (∀ octets : List UInt8, recover? (encodeBody octets) octets.length = some octets)
      ∧ (Function.Injective fun octets : List UInt8 => (encodeBody octets, octets.length))
      ∧ (∃ a b : List UInt8, a ≠ b ∧ encodeBody a = encodeBody b)
      ∧ ∀ (r : Report) (now : Nat),
        (∀ c, r.requestBody = some c → ∃ data, (r.toEntry now).request.postData = some data
          ∧ recover? data.text (r.toEntry now).request.bodySize = some c.octets)
        ∧ ∀ head c, r.response = some head → r.responseBody = some c →
          ∃ text, (r.toEntry now).response.content.text = some text
            ∧ (r.toEntry now).response.bodySize = (r.toEntry now).response.content.size
            ∧ recover? text (r.toEntry now).response.content.size = some c.octets := by
  refine ⟨recover?_encodeBody, encodeBody_injective, same_text_of_two_bodies, ?_⟩
  intro r now
  constructor
  · intro c hbody
    have hdata : (r.toEntry now).request.postData
        = some { mimeType := headerText r.request.headers "content-type",
                 text := encodeBody c.octets } := by
      rw [Report.toEntry, requestRecord, hbody]
      rfl
    have hsize : (r.toEntry now).request.bodySize = c.octets.length := by
      rw [Report.toEntry, requestRecord, hbody]
      rfl
    refine ⟨_, hdata, ?_⟩
    rw [hsize]
    exact recover?_encodeBody c.octets
  · intro head c hhead hbody
    have htext : (r.toEntry now).response.content.text = some (encodeBody c.octets) := by
      rw [Report.toEntry, hhead, hbody]
      rfl
    have hsize : (r.toEntry now).response.content.size = c.octets.length := by
      rw [Report.toEntry, hhead, hbody]
      rfl
    have hsame : (r.toEntry now).response.bodySize = (r.toEntry now).response.content.size := by
      rw [Report.toEntry, hhead]
      rfl
    refine ⟨_, htext, hsame, ?_⟩
    rw [hsize]
    exact recover?_encodeBody c.octets

/-- A request body that is no UTF-8, and a response body that is its Base64: their texts are the
same, and their sizes are not. -/
theorem recorded_bodies_recovered_same_text :
    let head : RequestHead := ⟨"POST", ⟨some "http", some "h", "/", none⟩, .http11, .empty⟩
    let answer : ResponseHead := { status := 200, version := .http11, headers := .empty }
    let sent : Capture := ⟨[0xFF], true⟩
    let answered : Capture := ⟨[0x2F, 0x77, 0x3D, 0x3D], true⟩
    let r : Report :=
      ⟨.new { started := 0 }, none, head, some sent, some answer, some answered, none⟩
    let e := r.toEntry 0
    (e.request.postData.map (·.text) = some "/w==" ∧ e.request.bodySize = 1
        ∧ ∃ data, e.request.postData = some data
          ∧ recover? data.text e.request.bodySize = some [0xFF])
      ∧ e.response.content.text = some "/w==" ∧ e.response.content.size = 4
      ∧ ∃ text, e.response.content.text = some text
        ∧ e.response.bodySize = e.response.content.size
        ∧ recover? text e.response.content.size = some [0x2F, 0x77, 0x3D, 0x3D] := by
  intro head answer sent answered r e
  obtain ⟨hrequest, hresponse⟩ := recorded_bodies_recovered.2.2.2 r 0
  have hbase : Utf8.decode? [0xFF] = none := by decide +kernel
  have hplain : Utf8.decode? [0x2F, 0x77, 0x3D, 0x3D] = some ['/', 'w', '=', '='] := by
    decide +kernel
  have hsent : encodeBody sent.octets = "/w==" := by
    rw [encodeBody, hbase]
    rfl
  have hanswered : encodeBody answered.octets = "/w==" := by
    rw [encodeBody, hplain]
  refine ⟨⟨?_, rfl, hrequest sent rfl⟩, ?_, rfl, hresponse answer answered rfl rfl⟩
  · exact congrArg some hsent
  · exact congrArg some hanswered

end ExchangeArchive.Trip
