import LocalServer.Responses

/-! The two places that write a response out: `Response::send` to a stream, and
`Server::serialize_response` for the event loop. Only the latter knows redirects. -/

namespace LocalServer.Encoders
open Library Action Utf8 Text Handler Responses

def Agrees (response : Response) (stream : Writer) : Prop :=
  (response.send stream).2.received = stream.received ++ response.serializeResponse

def withoutTarget (response : Response) : Response := { response with redirectLocation := none }

def sentHeader (response : Response) : Bytes :=
  let cookieHeaders :=
    response.cookies.flatMap fun cookie => "Set-Cookie: ".toList ++ cookie ++ "\r\n".toList
  encode ("HTTP/1.1 ".toList ++ response.status.asStr ++ "\r\nContent-Type: ".toList ++
    response.contentType ++ "\r\nContent-Length: ".toList ++ Response.decimal response.body.length ++
    "\r\n".toList ++ cookieHeaders ++ "\r\n".toList)

section
variable (response : Response)

theorem serialize_withoutTarget :
    (withoutTarget response).serializeResponse = sentHeader response ++ response.body := by
  unfold Response.serializeResponse sentHeader withoutTarget
  dsimp only
  rw [List.append_nil]

theorem send_eq (stream : Writer) : (response.send stream).2 =
    if (Writer.writeAll (sentHeader response) stream).1 = true then
      (Writer.writeAll response.body (Writer.writeAll (sentHeader response) stream).2).2
    else (Writer.writeAll (sentHeader response) stream).2 := by
  change ((if (Writer.writeAll (sentHeader response) stream).1 = true then
    (Writer.writeAll response.body >>= fun _ => pure () : Action Writer Unit)
      else pure ()) (Writer.writeAll (sentHeader response) stream).2).2 = _
  split_ifs <;> rfl

/-- A stream that accepts every byte is sent the response without its target. -/
theorem send_received {stream : Writer} (accepts : stream.Accepts) :
    (response.send stream).2.received =
      stream.received ++ (withoutTarget response).serializeResponse := by
  obtain ⟨written, arrived, still⟩ := Writer.writeAll_accepts (sentHeader response) accepts
  obtain ⟨-, rest, -⟩ := Writer.writeAll_accepts response.body still
  rw [send_eq, if_pos written, rest, arrived, serialize_withoutTarget, List.append_assoc]

/-- Any other stream is sent a first part of it. -/
theorem send_prefix (stream : Writer) : ∃ sent,
    (response.send stream).2.received = stream.received ++ sent ∧
      sent <+: (withoutTarget response).serializeResponse := by
  obtain ⟨first, arrived, ahead, all⟩ := Writer.writeAll_received (sentHeader response) stream
  rw [send_eq, serialize_withoutTarget]
  by_cases written : (Writer.writeAll (sentHeader response) stream).1 = true
  · obtain ⟨last, rest, within, -⟩ :=
      Writer.writeAll_received response.body (Writer.writeAll (sentHeader response) stream).2
    rw [if_pos written]
    refine ⟨sentHeader response ++ last, ?_, (List.prefix_append_right_inj _).mpr within⟩
    rw [rest, arrived, all written, List.append_assoc]
  · rw [if_neg written]
    exact ⟨first, arrived, ahead.trans (List.prefix_append _ _)⟩

theorem asStr_start (status : StatusCode) : ∃ first rest, status.asStr = first :: rest ∧ first ≠ '3' := by
  cases status <;> exact ⟨_, _, rfl, by decide⟩

theorem asStr_ne_moved (status : StatusCode) (after after' : Str) :
    status.asStr ++ after ≠ "301 Moved Permanently".toList ++ after' := by
  obtain ⟨first, rest, shape, different⟩ := asStr_start status
  have moved : "301 Moved Permanently".toList = '3' :: "01 Moved Permanently".toList := rfl
  rw [shape, moved]
  intro same
  exact different (List.cons.inj same).1

theorem withoutTarget_iff :
    (withoutTarget response).serializeResponse = response.serializeResponse ↔
      response.redirectLocation = none := by
  constructor
  · intro same
    cases target : response.redirectLocation with
    | none => rfl
    | some location =>
      unfold Response.serializeResponse withoutTarget at same
      rw [target] at same
      have texts := encode_injective (List.append_cancel_right same)
      simp only [List.append_assoc, List.append_cancel_left_eq] at texts
      exact absurd texts (asStr_ne_moved _ _ _)
  · intro direct
    rw [withoutTarget, ← direct]

end

/-- The two agree on every response that is no redirect, and on no redirect. -/
theorem agrees_iff (response : Response) {stream : Writer} (accepts : stream.Accepts) :
    Agrees response stream ↔ response.redirectLocation = none := by
  rw [Agrees, send_received response accepts, List.append_cancel_left_eq]
  exact withoutTarget_iff response

def slowStream : Writer := ⟨[], [.took 20, .interrupted, .took 3]⟩

def movedPage : Response := .redirect "/new".toList (encode (redirectPage "/new".toList))

theorem agrees_iff_slow :
    Agrees movedPage slowStream ↔ movedPage.redirectLocation = none :=
  agrees_iff movedPage (by decide)

/-- A redirect is sent as a page with status 200. -/
theorem redirect_dropped :
    ¬∀ (response : Response) (stream : Writer), stream.Accepts → Agrees response stream := by
  intro agrees
  have same := agrees movedPage ⟨[], []⟩ (by decide)
  exact absurd same (by unfold Agrees; decide +kernel)

theorem direct_of_answer {tables : CaseTables} {clock : Clock} {config : ServerConfig}
    (direct : ∀ loc ∈ config.locations, loc.redirect = none) {response : Response}
    (isAnswer : Answer tables clock config response) : response.redirectLocation = none := by
  cases isAnswer with
  | page | file | login | logout => rfl
  | script output =>
    unfold Cgi.parseCgiOutput
    cases Cgi.splitOutput output <;> rfl
  | redirect isLocation redirects body =>
    rw [direct _ isLocation] at redirects
    cases redirects

/-- `handle_with_root` has no location that redirects, so it sends what the event loop would. -/
theorem handleWithRoot_received (platform : Platform) (clock : Clock) (request : Request) (root : Str)
    {stream : Writer} (accepts : stream.Accepts) (world : World) :
    (handleWithRoot platform clock request root stream world).1.received = stream.received ++
      (buildResponse platform clock request (rootConfig root) world).1.serializeResponse := by
  have direct : ∀ loc ∈ (rootConfig root).locations, loc.redirect = none := by
    intro loc member
    rw [List.mem_singleton.mp member]
  have target := direct_of_answer direct
    (answers_buildResponse platform clock request (rootConfig root) world)
  have sent := send_received (buildResponse platform clock request (rootConfig root) world).1 accepts
  rwa [(withoutTarget_iff _).mpr target] at sent

end LocalServer.Encoders
