import LocalServer.CgiFraming

/-! The status a script declares, among its other headers. -/

namespace LocalServer.CgiStatus
open Library Utf8 Text Cgi CgiFraming

def statusLine (status : StatusCode) : Bytes := encode ("Status: ".toList ++ status.asStr)

def typeLine (contentType : Str) : Bytes := encode ("Content-Type: ".toList ++ contentType)

structure OtherHeader (tables : CaseTables) (line : Bytes) : Prop where
  single : HeaderLine line
  noStatus : ¬HasKey tables "status".toList (fromUtf8Lossy line)
  noType : ¬HasKey tables "content-type".toList (fromUtf8Lossy line)

structure Declaration (tables : CaseTables) where
  status : StatusCode
  contentType : Str
  single : '\r' ∉ contentType ∧ '\n' ∉ contentType
  unpadded : Unpadded contentType
  others : List Bytes
  other : ∀ line ∈ others, OtherHeader tables line
  headerLines : List Bytes
  order : headerLines.Perm (statusLine status :: typeLine contentType :: others)

/-- What one item of a list sets and the others keep is what it set, wherever it stands. -/
theorem foldl_set {σ ι ρ : Type*} {f : σ → ι → σ} {field : σ → ρ} {items others : List ι} {item : ι}
    {value : ρ} (order : items.Perm (item :: others)) (sets : ∀ s, field (f s item) = value)
    (keeps : ∀ other ∈ others, ∀ s, field (f s other) = field s) (first : σ) :
    field (items.foldl f first) = value := by
  obtain ⟨before, after, rfl⟩ := List.append_of_mem (order.mem_iff.mpr List.mem_cons_self)
  have rest : (before ++ after).Perm others := (List.perm_middle.symm.trans order).cons_inv
  have kept : ∀ other ∈ after, ∀ s, field (f s other) = field s :=
    fun other member => keeps other (rest.mem_iff.mp (by simp [member]))
  have unchanged : ∀ s, field (after.foldl f s) = field s := by
    clear rest keeps order
    induction after with
    | nil => exact fun s => rfl
    | cons other after ih =>
      intro s
      rw [List.foldl_cons, ih fun other' member => kept other' (List.mem_cons_of_mem _ member)]
      exact kept other List.mem_cons_self s
  rw [List.foldl_append, List.foldl_cons, unchanged, sets]

section
variable (tables : CaseTables)

theorem readHeader_other {line : Str} (noStatus : ¬HasKey tables "status".toList line)
    (noType : ¬HasKey tables "content-type".toList line) (known : StatusCode × Str) :
    readHeader tables known line = known := by
  rw [hasKey_iff] at noStatus noType
  unfold readHeader
  cases split : splitOnce ':' line with
  | none => rfl
  | some parts =>
    rw [split, Option.map_some, Option.some.injEq] at noStatus noType
    dsimp only
    rw [if_neg noType, if_neg noStatus]

theorem readHeader_status (status : StatusCode) (known : StatusCode × Str) :
    readHeader tables known ("Status: ".toList ++ status.asStr) =
      (statusOf (' ' :: status.asStr), known.2) := by
  have key : toLowercase tables (trim "Status".toList) = "status".toList :=
    (toLowercase_ascii tables _ (by decide)).trans (by decide)
  have split : splitOnce ':' ("Status: ".toList ++ status.asStr) =
      some ("Status".toList, ' ' :: status.asStr) :=
    @splitOnce_append ':' "Status".toList _ (by decide)
  rw [readHeader, split]
  dsimp only
  rw [key, if_neg (by decide), if_pos rfl]

theorem readHeader_type {contentType : Str} (unpadded : Unpadded contentType)
    (known : StatusCode × Str) :
    readHeader tables known ("Content-Type: ".toList ++ contentType) = (known.1, contentType) := by
  have key : toLowercase tables (trim "Content-Type".toList) = "content-type".toList :=
    (toLowercase_ascii tables _ (by decide)).trans (by decide)
  have split : splitOnce ':' ("Content-Type: ".toList ++ contentType) =
      some ("Content-Type".toList, ' ' :: contentType) :=
    @splitOnce_append ':' "Content-Type".toList _ (by decide)
  have value : trim (' ' :: contentType) = contentType := by
    have padded := @trim_pad [' '] contentType [] unpadded (by decide) (by simp)
    rwa [List.append_nil] at padded
  rw [readHeader, split]
  dsimp only
  rw [key, if_pos rfl, value]

theorem statusOf_asStr (status : StatusCode) :
    statusOf (' ' :: status.asStr) = status ↔
      status ≠ .methodNotAllowed ∧ status ≠ .contentTooLarge := by
  cases status <;> decide +kernel

end

theorem headerLine_statusLine (status : StatusCode) : HeaderLine (statusLine status) := by
  cases status <;> exact ⟨by decide +kernel, by decide +kernel, by decide +kernel⟩

theorem headerLine_typeLine {contentType : Str}
    (single : '\r' ∉ contentType ∧ '\n' ∉ contentType) : HeaderLine (typeLine contentType) := by
  have lacks : ∀ {mark : UInt8}, mark.toNat < 128 →
      Char.ofNat mark.toNat ∉ "Content-Type: ".toList → Char.ofNat mark.toNat ∉ contentType →
      mark ∉ typeLine contentType := by
    intro mark ascii inName inType member
    rcases List.mem_append.mp (mem_encode_ascii ascii member) with found | found
    · exact inName found
    · exact inType found
  refine ⟨?_, lacks (by decide) (by decide) single.1, lacks (by decide) (by decide) single.2⟩
  intro empty
  have none := congrArg List.length empty
  simp [typeLine, encode_cons, encodeChar_ascii] at none

namespace Declaration

variable {tables : CaseTables} (declared : Declaration tables)

theorem headerLine {line : Bytes} (member : line ∈ declared.headerLines) : HeaderLine line := by
  rcases List.mem_cons.mp (declared.order.mem_iff.mp member) with rfl | rest
  · exact headerLine_statusLine _
  · rcases List.mem_cons.mp rest with rfl | inOthers
    · exact headerLine_typeLine declared.single
    · exact (declared.other line inOthers).single

theorem headersOf_eq :
    headersOf tables declared.headerLines =
      (statusOf (' ' :: declared.status.asStr), declared.contentType) := by
  have texts := declared.order.map fromUtf8Lossy
  rw [List.map_cons, List.map_cons, statusLine, typeLine, fromUtf8Lossy_encode,
    fromUtf8Lossy_encode] at texts
  have others : ∀ line ∈ declared.others.map fromUtf8Lossy, ∀ known,
      readHeader tables known line = known := by
    intro text member known
    obtain ⟨line, inOthers, rfl⟩ := List.mem_map.mp member
    have other := declared.other line inOthers
    exact readHeader_other tables other.noStatus other.noType known
  unfold headersOf
  apply Prod.ext
  · apply @foldl_set _ _ _ _ Prod.fst _ _ _ _ texts
    · intro known
      rw [readHeader_status]
    · intro line member known
      rcases List.mem_cons.mp member with rfl | inOthers
      · rw [readHeader_type tables declared.unpadded]
      · rw [others line inOthers]
  · apply @foldl_set _ _ _ _ Prod.snd _ _ _ _ (texts.trans (List.Perm.swap _ _ _))
    · intro known
      rw [readHeader_type tables declared.unpadded]
    · intro line member known
      rcases List.mem_cons.mp member with rfl | inOthers
      · rw [readHeader_status]
      · rw [others line inOthers]

/-- Status, content type and body come back exactly for the statuses whose codes are listed. -/
theorem roundtrip_iff (body : Bytes) :
    parseCgiOutput tables (written .crlf declared.headerLines body) =
        .new declared.status declared.contentType body ↔
      declared.status ≠ .methodNotAllowed ∧ declared.status ≠ .contentTooLarge := by
  have some' : declared.headerLines ≠ [] := by
    intro none
    have order := declared.order
    rw [none] at order
    exact absurd order.symm (by simp)
  have each := fun line (member : line ∈ declared.headerLines) => declared.headerLine member
  have parsed : parseCgiOutput tables (written .crlf declared.headerLines body) =
      .new (statusOf (' ' :: declared.status.asStr)) declared.contentType body := by
    rw [parseCgiOutput_some tables (splitOutput_written each some' (Or.inl rfl)),
      lines_intercalate .crlf each]
    exact congrArg (fun known => Response.new known.1 known.2 body) declared.headersOf_eq
  rw [parsed, ← statusOf_asStr]
  constructor
  · exact fun same => congrArg Response.status same
  · intro same
    rw [same]

end Declaration

def tooLarge : Declaration asciiTables where
  status := .contentTooLarge
  contentType := "text/plain".toList
  single := by decide
  unpadded := by decide
  others := [utf8 "X-Custom: value"]
  other := by
    intro line member
    obtain rfl := List.mem_singleton.mp member
    exact ⟨⟨by decide +kernel, by decide +kernel, by decide +kernel⟩, by decide +kernel,
      by decide +kernel⟩
  headerLines := [typeLine "text/plain".toList, utf8 "X-Custom: value", statusLine .contentTooLarge]
  order := by
    rw [List.perm_iff_count]
    intro line
    simp only [List.count_cons, List.count_nil]
    omega

/-- It is answered as 200. -/
theorem tooLarge_lost : ¬∀ (declared : Declaration asciiTables) (body : Bytes),
    parseCgiOutput asciiTables (written .crlf declared.headerLines body) =
      .new declared.status declared.contentType body := by
  intro roundTrip
  have status := congrArg Response.status (roundTrip tooLarge [10])
  have lost : (parseCgiOutput asciiTables (written .crlf tooLarge.headerLines [10])).status = .ok := by
    decide +kernel
  exact absurd (lost.symm.trans status) (by decide)

end LocalServer.CgiStatus
