import LocalServer.ResponseFraming
import LocalServer.Segmentation

/-! Which complete requests are refused as too large. What is compared with the limit is not the
body but all the bytes that were received. -/

namespace LocalServer.BodyLimit
open Library Machine Utf8 Text Request RequestFraming ChunkedBody Handler Server Loop Segmentation
  Responses ResponseFraming

theorem decoded_length_le {data lastLine : Bytes} {frames : List Frame}
    (reading : Reading data frames lastLine) : (decoded frames).length ≤ data.length := by
  induction reading with
  | last sized => simp [decoded]
  | chunk sized nonempty gap tail ih =>
    have lengths := sized.length_eq
    simp only [List.length_append] at lengths
    simp only [decoded, List.flatMap_cons, List.length_append] at ih ⊢
    omega

/-- The body of a parsed request is no longer than the bytes it was parsed from. -/
theorem body_length_le {tables : CaseTables} {data : Bytes} {request : Request}
    (fits : Addressable data) (parsed : parse tables data = .ok (some request)) :
    request.body.length ≤ data.length := by
  obtain ⟨head, body, ⟨section', rest, block, -, follows⟩, rfl⟩ := (parse_eq_some fits).mp parsed
  have lengths := congrArg List.length block.cut
  simp only [List.length_append] at lengths
  have within : body.length ≤ rest.length := by
    split_ifs at follows
    · obtain ⟨frames, lastLine, reading, rfl⟩ := follows
      exact decoded_length_le reading
    · rw [follows]
  show body.length ≤ data.length
  omega

section
variable (platform : Platform) (server : Server) (clock : Clock) (fd : Fd) (pieces : List Bytes)
  (loop : Loop)

/-- The read event leaves a 413 to be written, and no handler has run. -/
structure Refuses : Prop where
  queued : (handleRead platform server clock fd (pieces.map .received) loop).2.writeBuffers.get fd =
    some (Response.error .contentTooLarge).serializeResponse
  untouched :
    (handleRead platform server clock fd (pieces.map .received) loop).2.world = loop.world

/-- Refused are the requests whose body is longer than the limit of their server, and no others. -/
def HeldToLimit (request : Request) : Prop :=
  Refuses platform server clock fd pieces loop ↔
    (server.matchConfig request).clientMaxBodySize < request.body.length

end

theorem status_of_statusLine {response : Response}
    (line : statusLine response = statusLine (.error .contentTooLarge)) :
    response.status = .contentTooLarge := by
  have refusal : statusText (.error .contentTooLarge) = StatusCode.contentTooLarge.asStr := rfl
  have text := (List.append_cancel_left line).trans refusal
  have moved : "301 Moved Permanently".toList ≠ StatusCode.contentTooLarge.asStr := by decide
  have distinct : ∀ status : StatusCode, status.asStr = StatusCode.contentTooLarge.asStr →
      status = .contentTooLarge := by
    intro status
    cases status <;> decide
  unfold statusText at text
  split_ifs at text
  · exact absurd text moved
  · exact distinct _ text

section
variable {platform : Platform} {server : Server} {clock : Clock} {fd : Fd} {loop : Loop}
  {before : Bytes} (buffer : loop.readBuffers.get fd = some before) (pieces : List Bytes)
  {request : Request}
  (parsed : parse platform.tables (before ++ pieces.flatten) = .ok (some request))
include buffer parsed

theorem refuses_iff : Refuses platform server clock fd pieces loop ↔
    (server.matchConfig request).clientMaxBodySize < (before ++ pieces.flatten).length := by
  have verdict : tooLarge platform.tables (limits server) (before ++ pieces.flatten) =
      decide ((server.matchConfig request).clientMaxBodySize < (before ++ pieces.flatten).length) := by
    rw [tooLarge, parsed]
    dsimp only
    rw [limitFor_limits, limitConfig]
  by_cases large :
      (server.matchConfig request).clientMaxBodySize < (before ++ pieces.flatten).length
  · have computed := (respond_tooLarge clock _ loop.world).mp (verdict.trans (decide_eq_true large))
    obtain ⟨-, -, queued, untouched⟩ := handleRead_tooLarge pieces buffer computed
    exact iff_of_true ⟨queued, untouched⟩ large
  · have within : tooLarge platform.tables (limits server) (before ++ pieces.flatten) = false :=
      verdict.trans (decide_eq_false large)
    have computed := @respond_parsed _ _ clock _ loop.world _ parsed within
    obtain ⟨-, -, queued, -⟩ := handleRead_answered pieces buffer computed
    apply iff_of_false _ large
    intro refuses
    rw [refuses.queued, Option.some.injEq] at queued
    have isAnswer := answers_buildResponse platform clock (splitQuery request)
      (server.matchConfig (splitQuery request)) loop.world
    exact isAnswer.status_ne (status_of_statusLine (statusLine_congr queued).symm)

/-- The limit is exact where the body alone is over it, or all that was received is within. -/
theorem heldToLimit_iff (fits : Addressable (before ++ pieces.flatten)) :
    HeldToLimit platform server clock fd pieces loop request ↔
      (server.matchConfig request).clientMaxBodySize < request.body.length ∨
        (before ++ pieces.flatten).length ≤ (server.matchConfig request).clientMaxBodySize := by
  have body := body_length_le fits parsed
  rw [HeldToLimit, refuses_iff buffer pieces parsed]
  constructor
  · intro held
    by_cases large : (server.matchConfig request).clientMaxBodySize < request.body.length
    · exact .inl large
    · exact .inr (Nat.le_of_not_lt fun beyond => large (held.mp beyond))
  · intro agrees
    constructor
    · omega
    · omega

end

def smallServer : Server := ⟨[{ webConfig with clientMaxBodySize := 8 }], by simp⟩

def smallUpload : Bytes := utf8 "POST /a HTTP/1.1\r\n\r\nhi"

theorem limit_smallServer (request : Request) :
    (smallServer.matchConfig request).clientMaxBodySize = 8 := by
  have member := matchConfig_mem smallServer request
  rw [List.mem_singleton.mp member]

theorem smallUpload_fits : Addressable smallUpload := by decide +kernel

theorem parse_smallUpload : ∃ request, parse asciiTables smallUpload = .ok (some request) ∧
    request.body = utf8 "hi" := by
  have block : HeaderBlock smallUpload (utf8 "POST /a HTTP/1.1") (utf8 "hi") :=
    ⟨by decide +kernel, by decide +kernel⟩
  have field : (parseHead asciiTables "POST /a HTTP/1.1".toList).map
      (fun head => isChunked asciiTables head.headers) = some false := by decide +kernel
  obtain ⟨head, known, plain⟩ := Option.map_eq_some_iff.mp field
  refine ⟨head.withBody (utf8 "hi"), ?_, rfl⟩
  rw [parse_block block smallUpload_fits, show fromUtf8Lossy (utf8 "POST /a HTTP/1.1") = _ from
    fromUtf8Lossy_encode _, known]
  simp only [bodyOf, plain, Bool.false_eq_true, if_false]

theorem smallUpload_arrives : ([] : Bytes) ++ [smallUpload].flatten = smallUpload := by simp

theorem heldToLimit_iff_small : ∃ request, parse asciiTables smallUpload = .ok (some request) ∧
    (HeldToLimit quietPlatform smallServer ⟨0, 0, 0⟩ 7 [smallUpload] webConnected request ↔
      (smallServer.matchConfig request).clientMaxBodySize < request.body.length ∨
        ([] ++ [smallUpload].flatten).length ≤
          (smallServer.matchConfig request).clientMaxBodySize) := by
  obtain ⟨request, parsed, -⟩ := parse_smallUpload
  refine ⟨request, parsed, ?_⟩
  rw [← smallUpload_arrives] at parsed
  have fits : Addressable ([] ++ [smallUpload].flatten) := by
    rw [smallUpload_arrives]
    exact smallUpload_fits
  exact heldToLimit_iff rfl [smallUpload] parsed fits

/-- The upload is refused, though its body is within the limit. -/
theorem smallUpload_refused :
    ¬∀ (platform : Platform) (server : Server) (clock : Clock) (fd : Fd) (loop : Loop)
      (before : Bytes) (pieces : List Bytes) (request : Request),
      loop.readBuffers.get fd = some before →
      parse platform.tables (before ++ pieces.flatten) = .ok (some request) →
      Addressable (before ++ pieces.flatten) →
      HeldToLimit platform server clock fd pieces loop request := by
  intro held
  obtain ⟨request, parsed, body⟩ := parse_smallUpload
  have fits : Addressable ([] ++ [smallUpload].flatten) := by
    rw [smallUpload_arrives]
    exact smallUpload_fits
  rw [← smallUpload_arrives] at parsed
  have agrees := held quietPlatform smallServer ⟨0, 0, 0⟩ 7 webConnected [] [smallUpload] request
    rfl parsed fits
  have verdict : Refuses quietPlatform smallServer ⟨0, 0, 0⟩ 7 [smallUpload] webConnected ↔
      (smallServer.matchConfig request).clientMaxBodySize < ([] ++ [smallUpload].flatten).length :=
    refuses_iff rfl [smallUpload] parsed
  have large : (smallServer.matchConfig request).clientMaxBodySize <
      ([] ++ [smallUpload].flatten).length := by
    rw [limit_smallServer, smallUpload_arrives]
    decide +kernel
  have beyond := agrees.mp (verdict.mpr large)
  rw [limit_smallServer, body] at beyond
  exact absurd beyond (by decide)

end LocalServer.BodyLimit
