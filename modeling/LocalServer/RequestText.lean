import LocalServer.RequestFraming

/-! Writing a request and parsing it: the head comes back word by word and header by
header, and the body byte by byte. -/

namespace LocalServer.RequestText
open Library Machine Search Utf8 Text Numeral Request ChunkedBody RequestFraming

/-- A header as a client may write it: its name in any letter case, with blanks around
name and value. -/
structure WrittenHeader where
  name : Str
  spelled : Str
  value : Str
  beforeName : Str
  afterName : Str
  beforeValue : Str
  afterValue : Str

def WrittenHeader.line (h : WrittenHeader) : Str :=
  (h.beforeName ++ h.spelled ++ h.afterName) ++ ':' :: (h.beforeValue ++ h.value ++ h.afterValue)

structure WrittenHeader.WellFormed (h : WrittenHeader) : Prop where
  spelled : SameIgnoringAsciiCase h.spelled h.name
  name : ':' ∉ h.name ∧ '\r' ∉ h.name ∧ '\n' ∉ h.name ∧ Unpadded h.name
  value : '\r' ∉ h.value ∧ '\n' ∉ h.value ∧ Unpadded h.value
  blanks : ∀ pad ∈ [h.beforeName, h.afterName, h.beforeValue, h.afterValue],
    ∀ c ∈ pad, isBlank c = true

def WrittenHeader.field (h : WrittenHeader) : Str × Str := (h.name, h.value)

def requestLine (method path version : Str) : Str := method ++ ' ' :: (path ++ ' ' :: version)

/-- `method path version CRLF (name:value CRLF)* CRLF body` -/
def renderRequest (method path version : Str) (headers : List WrittenHeader) (body : Bytes) : Bytes :=
  encode (requestLine method path version) ++ crlf ++
    headers.flatMap (fun h => encode h.line ++ crlf) ++ crlf ++ body

namespace WrittenHeader.WellFormed

variable {h : WrittenHeader} (wf : h.WellFormed)
include wf

theorem blank_ne {pad : Str} (member : pad ∈ [h.beforeName, h.afterName, h.beforeValue, h.afterValue])
    {mark : Char} (isMark : isBlank mark = false) : mark ∉ pad := by
  intro inPad
  rw [wf.blanks pad member mark inPad] at isMark
  cases isMark

theorem no_colon_before : ':' ∉ h.beforeName ++ h.spelled ++ h.afterName := by
  simp only [List.mem_append, not_or]
  exact ⟨⟨wf.blank_ne (by simp) (by decide),
    fun member => wf.name.1 ((wf.spelled.mem_iff (by decide)).mp member)⟩,
    wf.blank_ne (by simp) (by decide)⟩

theorem single {mark : Char} (isEnd : mark = '\r' ∨ mark = '\n') : mark ∉ h.line := by
  have blank : isBlank mark = false := by rcases isEnd with rfl | rfl <;> decide
  have letter : mark.isAlpha = false := by rcases isEnd with rfl | rfl <;> decide
  have colon : mark ≠ ':' := by rcases isEnd with rfl | rfl <;> decide
  have name : mark ∉ h.name := by
    rcases isEnd with rfl | rfl
    · exact wf.name.2.1
    · exact wf.name.2.2.1
  have value : mark ∉ h.value := by
    rcases isEnd with rfl | rfl
    · exact wf.value.1
    · exact wf.value.2.1
  simp only [WrittenHeader.line, List.mem_append, List.mem_cons, not_or]
  exact ⟨⟨⟨wf.blank_ne (by simp) blank, fun member => name ((wf.spelled.mem_iff letter).mp member)⟩,
    wf.blank_ne (by simp) blank⟩, colon,
    ⟨wf.blank_ne (by simp) blank, value⟩, wf.blank_ne (by simp) blank⟩

/-- The parser reads the line as its lowercased name and its value. -/
theorem insertHeader (tables : CaseTables) (headers : HashMap Str Str) :
    insertHeader tables headers h.line = headers.insert (toLowercase tables h.name) h.value := by
  have white : ∀ pad ∈ [h.beforeName, h.afterName, h.beforeValue, h.afterValue],
      ∀ c ∈ pad, isWhitespace c = true :=
    fun pad member c inPad => isWhitespace_blank (wf.blanks pad member c inPad)
  have key : trim (h.beforeName ++ h.spelled ++ h.afterName) = h.spelled :=
    trim_pad (wf.spelled.unpadded wf.name.2.2.2) (white _ (by simp)) (white _ (by simp))
  have value : trim (h.beforeValue ++ h.value ++ h.afterValue) = h.value :=
    trim_pad wf.value.2.2 (white _ (by simp)) (white _ (by simp))
  simp only [Request.insertHeader, WrittenHeader.line, splitOnce_append _ wf.no_colon_before, key,
    value, toLowercase_congr tables wf.spelled]

end WrittenHeader.WellFormed

theorem foldl_insertHeader (tables : CaseTables) {headers : List WrittenHeader}
    (wellFormed : ∀ h ∈ headers, h.WellFormed) (map : HashMap Str Str) :
    (headers.map WrittenHeader.line).foldl (insertHeader tables) map =
      (headers.map fun h => (toLowercase tables h.name, h.value)).foldl
        (fun map pair => map.insert pair.1 pair.2) map := by
  induction headers generalizing map with
  | nil => rfl
  | cons h headers ih =>
    simp only [List.map_cons, List.foldl_cons]
    rw [(wellFormed h (by simp)).insertHeader, ih (fun h' member => wellFormed h' (by simp [member]))]

theorem splitWhitespace_requestLine {method path version : Str} (isMethod : IsWord method)
    (isPath : IsWord path) (isVersion : IsWord version) :
    splitWhitespace (requestLine method path version) = [method, path, version] := by
  rw [requestLine, splitWhitespace_cons _ isMethod rfl, splitWhitespace_cons _ isPath rfl,
    splitWhitespace_word isVersion]

/-! The blank line -/

theorem encode_no_cr {text : Str} (plain : '\r' ∉ text) : 13 ∉ encode text :=
  fun member => plain (mem_encode_ascii (b := 13) (by decide) member)

/-- Nonempty lines without a carriage return, each ended by `\r\n`: the blank line is found
behind the last of them. -/
theorem position_lines (last : Bytes) (others : List Bytes) (rest : Bytes)
    (plain : ∀ line ∈ others ++ [last], line ≠ [] ∧ 13 ∉ line) :
    position separator (others.flatMap (fun line => line ++ crlf) ++ (last ++ (separator ++ rest))) =
      some (others.flatMap (fun line => line ++ crlf) ++ last).length := by
  induction others with
  | nil => exact position_after rest (plain last (by simp)).2
  | cons line others ih =>
    have tail := ih (fun l member => plain l (by simp at member ⊢; tauto))
    obtain ⟨-, noCr⟩ := plain line (by simp)
    -- what follows a line end starts with a nonempty line, so no blank line starts there
    obtain ⟨b, after, shape, different⟩ : ∃ b after,
        others.flatMap (fun line => line ++ crlf) ++ (last ++ (separator ++ rest)) = b :: after ∧
          b ≠ 13 := by
      have first : ∃ head ∈ others ++ [last], ∃ after,
          others.flatMap (fun line => line ++ crlf) ++ (last ++ (separator ++ rest)) =
            head ++ after := by
        cases others with
        | nil => exact ⟨last, by simp, separator ++ rest, rfl⟩
        | cons next others =>
          refine ⟨next, by simp, ?_⟩
          simp only [List.flatMap_cons, List.append_assoc]
          exact ⟨_, rfl⟩
      obtain ⟨head, member, after, shape⟩ := first
      obtain ⟨nonempty, noCr'⟩ := plain head (by simp at member ⊢; tauto)
      obtain ⟨b, head, rfl⟩ := List.exists_cons_of_ne_nil nonempty
      exact ⟨b, head ++ after, shape, fun same => noCr' (by simp [same])⟩
    rw [List.flatMap_cons, List.append_assoc, position_skip, tail]
    · simp only [Option.map_some, List.length_append, Option.some.injEq]
      omega
    · intro i small stands
      rw [shape, List.append_assoc] at stands
      simp only [List.length_append, crlf, List.length_cons, List.length_nil] at small
      rcases Nat.lt_or_ge i line.length with within | beyond
      · rw [List.drop_append_of_le_length (by omega), List.drop_eq_getElem_cons within,
          List.cons_append, separator, List.cons_prefix_cons] at stands
        exact noCr (stands.1 ▸ List.getElem_mem within)
      · obtain rfl | rfl : i = line.length ∨ i = line.length + 1 := by omega
        · rw [List.drop_left] at stands
          simp only [separator, crlf, List.cons_append, List.nil_append, List.cons_prefix_cons] at stands
          exact different stands.2.2.1.symm
        · rw [← List.drop_drop, List.drop_left] at stands
          simp only [separator, crlf, List.cons_append, List.nil_append, List.drop_succ_cons,
            List.drop_zero, List.cons_prefix_cons] at stands
          exact absurd stands.1 (by decide)

theorem encode_joinLines (others : List Str) (last : Str) :
    encode (joinLines (others ++ [last])) =
      (others.map encode).flatMap (fun line => line ++ crlf) ++ encode last := by
  induction others with
  | nil => rfl
  | cons line others ih =>
    have step : joinLines (line :: (others ++ [last])) =
        line ++ '\r' :: '\n' :: joinLines (others ++ [last]) := by
      cases others <;> rfl
    rw [List.cons_append, step, encode_append, encode_cons, encode_cons, ih]
    simp only [List.map_cons, List.flatMap_cons, List.append_assoc]
    rfl

/-- Any nonempty lines, each ended by `\r\n`, with a blank line behind them. -/
theorem headerBlock_lines {all : List Str} (nonempty : all ≠ [])
    (plain : ∀ line ∈ all, line ≠ [] ∧ '\r' ∉ line) (body : Bytes) :
    HeaderBlock (all.flatMap (fun line => encode line ++ crlf) ++ (crlf ++ body))
      (encode (joinLines all)) body := by
  obtain ⟨others, last, rfl⟩ : ∃ others last, all = others ++ [last] := by
    rcases List.eq_nil_or_concat all with empty | ⟨others, last, shape⟩
    · exact absurd empty nonempty
    · exact ⟨others, last, by rw [shape, List.concat_eq_append]⟩
  have encoded : ∀ line ∈ others.map encode ++ [encode last], line ≠ [] ∧ 13 ∉ line := by
    intro line member
    obtain ⟨text, inLines, rfl⟩ : ∃ text ∈ others ++ [last], line = encode text := by
      simp only [List.mem_append, List.mem_map, List.mem_singleton] at member ⊢
      rcases member with ⟨text, inOthers, rfl⟩ | rfl
      · exact ⟨text, Or.inl inOthers, rfl⟩
      · exact ⟨last, Or.inr rfl, rfl⟩
    obtain ⟨someText, noCr⟩ := plain text inLines
    exact ⟨fun empty => someText (encode_injective empty), encode_no_cr noCr⟩
  have found := position_lines (encode last) (others.map encode) body encoded
  have rendered : (others ++ [last]).flatMap (fun line => encode line ++ crlf) ++ (crlf ++ body) =
      (others.map encode).flatMap (fun line => line ++ crlf) ++
        (encode last ++ (separator ++ body)) := by
    simp only [List.flatMap_append, List.flatMap_map, List.flatMap_singleton, List.append_assoc]
    rfl
  refine ⟨?_, ?_⟩
  · rw [rendered, encode_joinLines, List.append_assoc]
  · rw [rendered, found, encode_joinLines]

/-- The head of such lines: the request line's words, and the other lines as headers. -/
theorem parseHead_lines (tables : CaseTables) {method path version : Str} {others : List Str}
    (isMethod : IsWord method) (isPath : IsWord path) (isVersion : IsWord version)
    (plain : ∀ line ∈ requestLine method path version :: others, line ≠ [] ∧ '\n' ∉ line) :
    parseHead tables (joinLines (requestLine method path version :: others)) =
      some ⟨methodOf method, path, version, others.foldl (insertHeader tables) HashMap.empty⟩ := by
  have split : lines (joinLines (requestLine method path version :: others)) =
      requestLine method path version :: others :=
    lines_joinLines (fun line member => (plain line member).1) fun line member =>
      (plain line member).2
  rw [parseHead, split]
  simp only [splitWhitespace_requestLine isMethod isPath isVersion]

theorem requestLine_plain {method path version : Str} (isMethod : IsWord method)
    (isPath : IsWord path) (isVersion : IsWord version) :
    requestLine method path version ≠ [] ∧ '\r' ∉ requestLine method path version ∧
      '\n' ∉ requestLine method path version := by
  have single : ∀ mark, isWhitespace mark = true → mark ≠ ' ' →
      mark ∉ requestLine method path version := by
    intro mark white different
    simp only [requestLine, List.mem_append, List.mem_cons, not_or]
    exact ⟨isMethod.not_mem white, different, isPath.not_mem white, different,
      isVersion.not_mem white⟩
  exact ⟨by simp [requestLine], single '\r' rfl (by decide), single '\n' rfl (by decide)⟩

def headLines (method path version : Str) (headers : List WrittenHeader) : List Str :=
  requestLine method path version :: headers.map WrittenHeader.line

section
variable {method path version : Str} {headers : List WrittenHeader}
  (isMethod : IsWord method) (isPath : IsWord path) (isVersion : IsWord version)
  (wellFormed : ∀ h ∈ headers, h.WellFormed)
include isMethod isPath isVersion wellFormed

theorem headLines_plain {line : Str} (member : line ∈ headLines method path version headers) :
    line ≠ [] ∧ '\r' ∉ line ∧ '\n' ∉ line := by
  rcases List.mem_cons.mp member with rfl | inHeaders
  · exact requestLine_plain isMethod isPath isVersion
  · obtain ⟨h, inList, rfl⟩ := List.mem_map.mp inHeaders
    have wf := wellFormed h inList
    exact ⟨by simp [WrittenHeader.line], wf.single (Or.inl rfl), wf.single (Or.inr rfl)⟩

theorem headerBlock_render (body : Bytes) :
    HeaderBlock (renderRequest method path version headers body)
      (encode (joinLines (headLines method path version headers))) body := by
  have rendered : renderRequest method path version headers body =
      (headLines method path version headers).flatMap (fun line => encode line ++ crlf) ++
        (crlf ++ body) := by
    simp only [renderRequest, headLines, List.flatMap_cons, List.flatMap_map, List.append_assoc]
  rw [rendered]
  apply headerBlock_lines (List.cons_ne_nil _ _)
  intro line member
  obtain ⟨nonempty, noCr, -⟩ := headLines_plain isMethod isPath isVersion wellFormed member
  exact ⟨nonempty, noCr⟩

theorem parseHead_render (tables : CaseTables) {fields : List (Str × Str)}
    (order : (headers.map WrittenHeader.field).Perm fields)
    (distinct : (fields.map fun field => toLowercase tables field.1).Nodup) :
    parseHead tables (joinLines (headLines method path version headers)) =
      some ⟨methodOf method, path, version,
        HashMap.ofPairs (fields.map fun field => (toLowercase tables field.1, field.2))⟩ := by
  have sameMap : HashMap.ofPairs (headers.map fun h => (toLowercase tables h.name, h.value)) =
      HashMap.ofPairs (fields.map fun field => (toLowercase tables field.1, field.2)) := by
    apply HashMap.ofPairs_perm
    · have mapped := order.map fun field => (toLowercase tables field.1, field.2)
      rwa [List.map_map] at mapped
    · rwa [List.map_map]
  rw [headLines, parseHead_lines tables isMethod isPath isVersion, ← sameMap,
    foldl_insertHeader tables wellFormed]
  · rfl
  · intro line member
    obtain ⟨nonempty, -, noLf⟩ := headLines_plain isMethod isPath isVersion wellFormed member
    exact ⟨nonempty, noLf⟩

/-- A request comes back from its text: method, path, version, the headers by their
lowercased names, and every byte of the body. -/
theorem parse_renderRequest (tables : CaseTables) (fields : List (Str × Str)) (body : Bytes)
    (order : (headers.map WrittenHeader.field).Perm fields)
    (distinct : (fields.map fun field => toLowercase tables field.1).Nodup)
    (plain : ∀ field ∈ fields, toLowercase tables field.1 = "transfer-encoding".toList →
      contains "chunked".toList (toLowercase tables field.2) = false)
    (fits : Addressable (renderRequest method path version headers body)) :
    parse tables (renderRequest method path version headers body) =
        .ok (some ⟨methodOf method, path, version,
          HashMap.ofPairs (fields.map fun field => (toLowercase tables field.1, field.2)), body⟩) ∧
      methodStr (methodOf method) = method := by
  refine ⟨?_, methodStr_methodOf method⟩
  have block := headerBlock_render isMethod isPath isVersion wellFormed body
  have head := parseHead_render isMethod isPath isVersion wellFormed tables order distinct
  rw [parse_block block fits, fromUtf8Lossy_encode, head]
  have notChunked : isChunked tables
      (HashMap.ofPairs (fields.map fun field => (toLowercase tables field.1, field.2))) = false := by
    unfold isChunked
    cases found : (HashMap.ofPairs (fields.map fun field =>
        (toLowercase tables field.1, field.2))).get "transfer-encoding".toList with
    | none => rfl
    | some value =>
      rw [HashMap.get_ofPairs (by rwa [List.map_map])] at found
      obtain ⟨field, member, pair⟩ := List.mem_map.mp found
      obtain ⟨name, rfl⟩ := Prod.mk.inj pair
      exact plain field member name
  simp only [bodyOf, notChunked]
  rfl

end

def hostHeader : WrittenHeader :=
  ⟨"host".toList, "HoST".toList, "localhost".toList, [], " ".toList, "\t".toList, [' ']⟩

def chunkedHeader : WrittenHeader :=
  ⟨"Transfer-Encoding".toList, "TRANSFER-encoding".toList, "Chunked".toList, [' '], [], [], []⟩

theorem hostHeader_wellFormed : hostHeader.WellFormed :=
  ⟨by decide, ⟨by decide, by decide, by decide, by decide⟩, ⟨by decide, by decide, by decide⟩,
    by decide⟩

theorem chunkedHeader_wellFormed : chunkedHeader.WellFormed :=
  ⟨by decide, ⟨by decide, by decide, by decide, by decide⟩, ⟨by decide, by decide, by decide⟩,
    by decide⟩

/-- The body holds a blank line and a byte that no UTF-8 text has. -/
theorem parse_renderRequest_host :
    parse asciiTables (renderRequest "PUT".toList "/a".toList "HTTP/1.1".toList [hostHeader]
        [13, 10, 13, 10, 255]) =
        .ok (some ⟨methodOf "PUT".toList, "/a".toList, "HTTP/1.1".toList,
          HashMap.ofPairs [("host".toList, "localhost".toList)], [13, 10, 13, 10, 255]⟩) ∧
      methodStr (methodOf "PUT".toList) = "PUT".toList :=
  parse_renderRequest (by decide) (by decide) (by decide)
    (by simpa using hostHeader_wellFormed) asciiTables [hostHeader.field] [13, 10, 13, 10, 255]
    (List.Perm.refl _) (by decide) (by decide) (by decide +kernel)

/-! Chunked bodies -/

structure WrittenChunk where
  line : Bytes
  data : Bytes

structure WrittenChunk.WellFormed (chunk : WrittenChunk) : Prop where
  size : SizeText chunk.line chunk.data.length
  nonempty : chunk.data ≠ []

def WrittenChunk.bytes (chunk : WrittenChunk) : Bytes := chunk.line ++ crlf ++ chunk.data ++ crlf

def renderChunked (chunks : List WrittenChunk) (lastLine : Bytes) : Bytes :=
  chunks.flatMap WrittenChunk.bytes ++ lastLine ++ crlf

theorem message_renderChunked {chunks : List WrittenChunk} {lastLine : Bytes}
    (wellFormed : ∀ chunk ∈ chunks, chunk.WellFormed) (zero : SizeText lastLine 0) :
    Message (renderChunked chunks lastLine) (chunks.flatMap WrittenChunk.data) := by
  induction chunks with
  | nil => exact .last zero
  | cons chunk chunks ih =>
    have tail := ih (fun other member => wellFormed other (by simp [member]))
    obtain ⟨size, nonempty⟩ := wellFormed chunk (by simp)
    have whole := Message.chunk size nonempty tail
    simpa only [renderChunked, WrittenChunk.bytes, List.flatMap_cons, List.append_assoc] using whole

structure AnnouncesChunked (field : Str × Str) : Prop where
  name : SameIgnoringAsciiCase field.1 "Transfer-Encoding".toList
  value : SameIgnoringAsciiCase field.2 "chunked".toList

theorem isChunked_of_announced (tables : CaseTables) {fields : List (Str × Str)}
    (distinct : (fields.map fun field => toLowercase tables field.1).Nodup)
    (announced : ∃ field ∈ fields, AnnouncesChunked field) :
    isChunked tables
      (HashMap.ofPairs (fields.map fun field => (toLowercase tables field.1, field.2))) = true := by
  obtain ⟨⟨name, value⟩, member, sameName, sameValue⟩ := announced
  have key : toLowercase tables name = "transfer-encoding".toList := by
    rw [toLowercase_congr tables sameName]
    exact (toLowercase_ascii tables _ (by decide)).trans (by decide)
  have found : (HashMap.ofPairs (fields.map fun field =>
      (toLowercase tables field.1, field.2))).get "transfer-encoding".toList = some value := by
    rw [HashMap.get_ofPairs (by rwa [List.map_map])]
    exact List.mem_map.mpr ⟨(name, value), member, by rw [key]⟩
  have lowered : toLowercase tables value = "chunked".toList := by
    rw [toLowercase_congr tables sameValue]
    exact (toLowercase_ascii tables _ (by decide)).trans (by decide)
  rw [isChunked, found]
  simp only [lowered]
  decide +kernel

/-- Decoding undoes encoding: chunks come back as one body, whatever bytes they hold and
whatever follows, alone and as the body of a request that announces them. -/
theorem decode_renderChunked (tables : CaseTables) (chunks : List WrittenChunk)
    (lastLine after : Bytes) (wellFormed : ∀ chunk ∈ chunks, chunk.WellFormed)
    (zero : SizeText lastLine 0) (fits : Addressable (renderChunked chunks lastLine ++ after)) :
    decodeChunked (renderChunked chunks lastLine ++ after) =
        .ok (some (chunks.flatMap WrittenChunk.data)) ∧
      ∀ (method path version : Str) (headers : List WrittenHeader) (fields : List (Str × Str)),
        IsWord method → IsWord path → IsWord version → (∀ h ∈ headers, h.WellFormed) →
        (headers.map WrittenHeader.field).Perm fields →
        (fields.map fun field => toLowercase tables field.1).Nodup →
        (∃ field ∈ fields, AnnouncesChunked field) →
        Addressable (renderRequest method path version headers
          (renderChunked chunks lastLine ++ after)) →
        parse tables (renderRequest method path version headers
            (renderChunked chunks lastLine ++ after)) =
          .ok (some ⟨methodOf method, path, version,
            HashMap.ofPairs (fields.map fun field => (toLowercase tables field.1, field.2)),
            chunks.flatMap WrittenChunk.data⟩) := by
  have decodes := (message_renderChunked wellFormed zero).decoded after fits
  refine ⟨decodes, ?_⟩
  intro method path version headers fields isMethod isPath isVersion headersWellFormed order
    distinct announced requestFits
  have block := headerBlock_render isMethod isPath isVersion headersWellFormed
    (renderChunked chunks lastLine ++ after)
  have head := parseHead_render isMethod isPath isVersion headersWellFormed tables order distinct
  rw [parse_block block requestFits, fromUtf8Lossy_encode, head]
  simp only [bodyOf, isChunked_of_announced tables distinct announced, decodes, if_true]
  rfl

def someChunks : List WrittenChunk :=
  [⟨utf8 " 03", utf8 "\r\n1"⟩, ⟨utf8 "1\t", utf8 "x"⟩]

theorem sizeText_of_parts {line : Bytes} {size : Nat} (before digits after : Str)
    (shape : line = encode (before ++ digits ++ after))
    (blank : ∀ c ∈ before ++ after, isBlank c = true) (isDigits : IsDigits 16 digits)
    (sized : value 16 digits = size) : SizeText line size :=
  ⟨before, digits, after, shape, fun c member => blank c (by simp [member]),
    fun c member => blank c (by simp [member]), isDigits, sized⟩

theorem someChunks_wellFormed : ∀ chunk ∈ someChunks, chunk.WellFormed := by
  intro chunk member
  simp only [someChunks, List.mem_cons, List.not_mem_nil, or_false] at member
  rcases member with rfl | rfl
  · exact ⟨sizeText_of_parts " ".toList "03".toList [] (by decide +kernel) (by decide)
      (by decide) (by decide), by decide +kernel⟩
  · exact ⟨sizeText_of_parts [] "1".toList "\t".toList (by decide +kernel) (by decide)
      (by decide) (by decide), by decide +kernel⟩

theorem decode_renderChunked_some :
    decodeChunked (renderChunked someChunks (utf8 "00") ++ utf8 "trailer\r\n") =
        .ok (some (utf8 "\r\n1x")) ∧
      parse asciiTables (renderRequest "POST".toList "/a".toList "HTTP/1.1".toList
          [hostHeader, chunkedHeader]
          (renderChunked someChunks (utf8 "00") ++ utf8 "trailer\r\n")) =
        .ok (some ⟨methodOf "POST".toList, "/a".toList, "HTTP/1.1".toList,
          HashMap.ofPairs [("host".toList, "localhost".toList),
            ("transfer-encoding".toList, "Chunked".toList)], utf8 "\r\n1x"⟩) := by
  obtain ⟨decodes, parses⟩ := decode_renderChunked asciiTables someChunks (utf8 "00")
    (utf8 "trailer\r\n") someChunks_wellFormed
    (sizeText_of_parts [] "00".toList [] (by decide +kernel) (by decide) (by decide) (by decide))
    (by decide +kernel)
  refine ⟨decodes, ?_⟩
  exact parses "POST".toList "/a".toList "HTTP/1.1".toList [hostHeader, chunkedHeader]
    [hostHeader.field, chunkedHeader.field] (by decide) (by decide) (by decide)
    (by
      intro h member
      simp only [List.mem_cons, List.not_mem_nil, or_false] at member
      rcases member with rfl | rfl
      · exact hostHeader_wellFormed
      · exact chunkedHeader_wellFormed)
    (List.Perm.refl _) (by decide) ⟨chunkedHeader.field, by simp, ⟨by decide, by decide⟩⟩
    (by decide +kernel)

end LocalServer.RequestText
