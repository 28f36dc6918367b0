import LocalServer.Exchanges
import LocalServer.ResponseFraming

/-! What a client makes of the bytes that it is sent, piece by piece. It reads up to the first
blank line, and then as many bytes as the length line says. -/

namespace LocalServer.ClientView
open Library Action Machine Search Utf8 Text Numeral Server Loop ResponseFraming Responses
  ConfigText RequestFraming Handling Isolation Exchanges

structure Seen where
  lines : List Bytes
  body : Bytes
  deriving DecidableEq

def seen (response : Response) : Seen := ⟨(headerLines response).map encode, response.body⟩

def lengthLabel : Bytes := utf8 "Content-Length: "

def lengthOf (line : Bytes) : Option Nat :=
  let digits := fromUtf8Lossy (line.drop lengthLabel.length)
  if lengthLabel <+: line ∧ IsDigits 10 digits then some (value 10 digits) else none

/-- A response, and what follows it, once there is enough of it. -/
def readReply (data : Bytes) : Option (Seen × Bytes) := do
  let index ← position Request.separator data
  let lines := split Request.crlf (data.take index)
  let length ← lines.findSome? lengthOf
  let behind := data.drop (index + Request.separator.length)
  if length ≤ behind.length then some (⟨lines, behind.take length⟩, behind.drop length) else none

theorem lengthOf_label (n : Nat) : lengthOf (lengthLabel ++ encode (Response.decimal n)) = some n := by
  have digits := isDigits_toDigits n
  have whole : value 10 (Response.decimal n) = n := by
    rw [Response.decimal_eq_toDigits, value, valueFrom_eq_ofDigitChars 0 _ fun c => isDigit_toDigits n,
      Nat.ofDigitChars_toDigits (by decide) (by decide)]
  rw [← Response.decimal_eq_toDigits] at digits
  unfold lengthOf
  rw [List.drop_left, fromUtf8Lossy_encode, if_pos ⟨List.prefix_append _ _, digits⟩, whole]

/-- No line before the length line is taken for it. -/
theorem lengthOf_headerLines (response : Response) :
    (seen response).lines.findSome? lengthOf = some response.body.length := by
  have label : encode "Content-Length: ".toList = lengthLabel := rfl
  have status : lengthOf (encode (statusLine response)) = none := by
    have start : ∃ rest, encode (statusLine response) = 72 :: rest := ⟨_, rfl⟩
    obtain ⟨rest, start⟩ := start
    rw [start, lengthOf, if_neg]
    intro labelled
    exact absurd (List.cons_prefix_cons.mp labelled.1).1 (by decide)
  have type : lengthOf (encode ("Content-Type: ".toList ++ response.contentType)) = none := by
    rw [encode_append, lengthOf, if_neg]
    intro labelled
    have early : utf8 "Content-Type: " <+: encode "Content-Type: ".toList ++
        encode response.contentType := List.prefix_append _ _
    have both := List.prefix_of_prefix_length_le early labelled.1 (by decide)
    exact absurd both (by decide)
  have length : lengthOf (encode ("Content-Length: ".toList ++
      Response.decimal response.body.length)) = some response.body.length := by
    rw [encode_append, label, lengthOf_label]
  simp only [seen, headerLines, List.cons_append, List.map_cons, List.findSome?_cons, status, type,
    length]

theorem readReply_serializeResponse {response : Response} (unbroken : Unbroken response) :
    readReply response.serializeResponse = some (seen response, []) := by
  obtain ⟨block, ends, lines⟩ := framed_of_unbroken unbroken
  have head : response.serializeResponse.take block.length = block := by
    rw [ends.cut, List.take_left]
  have behind : response.serializeResponse.drop (block.length + Request.separator.length) =
      response.body := by
    rw [ends.cut, ← List.drop_drop, List.drop_left, List.drop_left]
  have length := lengthOf_headerLines response
  rw [seen] at length
  simp only [readReply, ends.first, Option.bind_eq_bind, Option.bind_some, head, lines, length, behind,
    le_refl, if_true, List.take_length, List.drop_length, seen]

theorem selfDelimiting_readReply : SelfDelimiting readReply := by
  intro data message rest later early
  simp only [readReply, Option.bind_eq_bind] at early
  obtain ⟨index, found, early⟩ := Option.bind_eq_some_iff.mp early
  obtain ⟨length, isLength, early⟩ := Option.bind_eq_some_iff.mp early
  have inside := position_length_le found
  split_ifs at early with enough
  simp only [Option.some.injEq, Prod.mk.injEq] at early
  obtain ⟨rfl, rfl⟩ := early
  have head : (data ++ later).take index = data.take index :=
    List.take_append_of_le_length (by omega)
  have behind : (data ++ later).drop (index + Request.separator.length) =
      data.drop (index + Request.separator.length) ++ later := List.drop_append_of_le_length inside
  have enough' : length ≤ (data.drop (index + Request.separator.length) ++ later).length := by
    rw [List.length_append]
    omega
  simp only [readReply, Option.bind_eq_bind, position_append later found, Option.bind_some, head,
    isLength, behind, if_pos enough', List.take_append_of_le_length enough,
    List.drop_append_of_le_length enough]

/-- However its response arrives, a client that reads by lengths has nothing until it has all of
it, then has what a step of the run has computed from the bytes that it had sent by then, and keeps
it; an ordered end of the connection never cuts a response off. -/
theorem clients_read_replies {profile : Profile} {tables : UnicodeTables} {path text : Str}
    {config : Config}
    (accepted : ConfigFile.fromFile profile tables path (.ok text) = .ok (.ok config))
    (platform : Platform) (server : Server)
    (among : ∀ config' ∈ server.configs, config' ∈ config.servers) (listener : Fd) (loop : Loop)
    (steps : List (Loop × Label × Loop))
    (walk : Walk (Step platform server listener) Ordinary Initial steps loop) (connection : Nat) :
    (∀ view rest, readReply (delivered connection loop.kernel.log) = some (view, rest) →
      rest = [] ∧
      (∃ received answer, received <+: loop.kernel.received connection ∧
        (∃ moment ∈ steps, Gives platform server connection received answer moment) ∧
        view = seen answer.response) ∧
      ∀ later, Reaches (Step platform server listener) Ordinary (· = loop) later →
        readReply (delivered connection later.kernel.log) = some (view, [])) ∧
    (ShutDown connection loop.kernel.log → delivered connection loop.kernel.log ≠ [] →
      (readReply (delivered connection loop.kernel.log)).isSome = true) ∧
    (loop.phase ≠ .stopped → ∀ fd left, loop.kernel.owner fd = some connection →
      loop.writeBuffers.get fd = some left → left ≠ [] →
      readReply (delivered connection loop.kernel.log) = none) := by
  obtain ⟨exchange, run, corresponds⟩ := walk_corresponds walk connection
  have part : exchange.sent <+: exchange.reply := List.prefix_append _ _
  rw [corresponds.sent]
  rcases run.sound (Or.inl rfl) with none | ⟨moment, member, answer, given, isReply⟩
  · have nothing : exchange.sent = [] := (List.append_eq_nil_iff.mp none).1
    rw [nothing]
    exact ⟨nofun, fun _ begun => absurd rfl begun, fun _ _ _ _ _ _ => rfl⟩
  have plain : ∀ config' ∈ server.configs, PlainServer config' :=
    fun config' member => ConfigFile.plain_of_accepted accepted (among config' member)
  have reads : readReply exchange.reply = some (seen answer.response, []) := by
    cases given with
    | read named whole computed queued =>
      rw [isReply]
      exact readReply_serializeResponse (unbroken_of_reached plain (reached_respond _ _ _ computed))
  have nonempty : exchange.reply ≠ [] := by
    intro none
    rw [none] at reads
    cases reads
  refine ⟨?_, ?_, ?_⟩
  · intro view rest early
    obtain ⟨whole, rfl, rfl⟩ := selfDelimiting_readReply.read_part reads part early
    refine ⟨rfl, ⟨exchange.received, answer, corresponds.received, ⟨moment, member, given⟩, rfl⟩, ?_⟩
    intro later goesOn
    obtain ⟨exchange', corresponds', kept, same⟩ := reply_lasts walk.reaches corresponds nonempty goesOn
    have bounded : exchange'.sent <+: exchange.sent := by
      rw [whole, ← same]
      exact List.prefix_append _ _
    rw [corresponds'.sent, bounded.eq_of_length_le kept.length_le, whole, reads]
  · intro shut begun
    have whole : exchange.sent = exchange.reply := by
      rw [Exchange.reply, corresponds.whole shut, List.append_nil]
    rw [whole, reads]
    rfl
  · intro running fd left named waits more
    cases early : readReply exchange.sent with
    | none => rfl
    | some read =>
      obtain ⟨view, rest⟩ := read
      have whole := (selfDelimiting_readReply.read_part reads part early).1
      rw [Exchange.reply, corresponds.waiting running named waits] at whole
      exact absurd (List.append_right_eq_self.mp whole.symm) more

def webText : Str :=
  "server \x7b host 127.0.0.1; port 8080; location / \x7b root ./www; \x7d \x7d".toList

set_option maxRecDepth 4000 in
theorem web_accepted : ConfigFile.fromFile .release ConfigRejection.plainTables "web.conf".toList
    (.ok webText) = .ok (.ok ⟨[Handler.webConfig]⟩) := by
  rfl

def webPieces : List WriteResult := [.wrote 5, .wrote 114]

def webDelivered : Loop :=
  continueWith true []
    (removeTime Timeouts.writeReady.fd
      (handleWrite Timeouts.writeReady.fd webPieces
        (dispatched Timeouts.writeReady Timeouts.webSending)).2).2

theorem reaches_webDelivered :
    Reaches (Step Handler.quietPlatform webServer 3) Ordinary Initial webDelivered := by
  have opened : Timeouts.webSending.kernel.owner 7 ≠ none := by decide +kernel
  have ordinary : Ordinary Timeouts.webSending (.write Timeouts.writeReady webPieces) :=
    ⟨fun closed => absurd closed opened, trivial⟩
  have writes : Step Handler.quietPlatform webServer 3 Timeouts.webSending
      (.write Timeouts.writeReady webPieces) webDelivered := by
    unfold webDelivered
    exact .write rfl (by decide) rfl
  exact reaches_webSending.step ordinary writes

theorem clients_read_replies_webDelivered : ∃ steps view,
    Walk (Step Handler.quietPlatform webServer 3) Ordinary Initial steps webDelivered ∧
      readReply (delivered 0 webDelivered.kernel.log) = some (view, []) ∧
      ∃ received answer, received <+: webDelivered.kernel.received 0 ∧
        (∃ moment ∈ steps, Gives Handler.quietPlatform webServer 0 received answer moment) ∧
        view = seen answer.response := by
  obtain ⟨steps, walk⟩ := reaches_webDelivered.walk
  obtain ⟨⟨view, rest⟩, reads⟩ := Option.isSome_iff_exists.mp
    (show (readReply (delivered 0 webDelivered.kernel.log)).isSome = true by decide +kernel)
  obtain ⟨whole, -⟩ := clients_read_replies web_accepted Handler.quietPlatform webServer
    (fun _ member => member) 3 webDelivered steps walk 0
  obtain ⟨rfl, isReply, -⟩ := whole view rest reads
  exact ⟨steps, view, walk, reads, isReply⟩

end LocalServer.ClientView
