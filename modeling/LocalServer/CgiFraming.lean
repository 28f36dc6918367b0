import LocalServer.Cgi

/-! Where a script's header lines end and its body begins. -/

namespace LocalServer.CgiFraming
open Library Search Utf8 Text Request Cgi

inductive LineEnd where
  | lf
  | crlf
  deriving DecidableEq

def LineEnd.bytes : LineEnd → Bytes
  | .lf => [10]
  | .crlf => [13, 10]

def LineEnd.text : LineEnd → Str
  | .lf => ['\n']
  | .crlf => ['\r', '\n']

structure HeaderLine (line : Bytes) : Prop where
  nonempty : line ≠ []
  noCr : 13 ∉ line
  noLf : 10 ∉ line

def written (style : LineEnd) (headerLines : List Bytes) (body : Bytes) : Bytes :=
  headerLines.flatMap (· ++ style.bytes) ++ (style.bytes ++ body)

def headersOf (tables : CaseTables) (headerLines : List Bytes) : StatusCode × Str :=
  (headerLines.map fromUtf8Lossy).foldl (readHeader tables) (.ok, "text/html".toList)

theorem fromUtf8Lossy_line (style : LineEnd) (line rest : Bytes) :
    fromUtf8Lossy (line ++ (style.bytes ++ rest)) =
      fromUtf8Lossy line ++ (style.text ++ fromUtf8Lossy rest) := by
  cases style with
  | lf => exact fromUtf8Lossy_append_ascii (by decide) line rest
  | crlf =>
    have second : fromUtf8Lossy (10 :: rest) = '\n' :: fromUtf8Lossy rest :=
      fromUtf8Lossy_append_ascii (by decide) [] rest
    have first := @fromUtf8Lossy_append_ascii 13 (by decide) line (10 :: rest)
    rw [second] at first
    exact first

theorem HeaderLine.no_lf {line : Bytes} (isLine : HeaderLine line) : '\n' ∉ fromUtf8Lossy line :=
  fun member => isLine.noLf (mem_fromUtf8Lossy_ascii (by decide) member)

theorem HeaderLine.no_cr {line : Bytes} (isLine : HeaderLine line) : '\r' ∉ fromUtf8Lossy line :=
  fun member => isLine.noCr (mem_fromUtf8Lossy_ascii (by decide) member)

theorem HeaderLine.stripCr {line : Bytes} (isLine : HeaderLine line) :
    stripCr (fromUtf8Lossy line) = fromUtf8Lossy line := by
  apply if_neg
  intro last
  exact isLine.no_cr (List.mem_of_getLast? last)

theorem lines_line {line : Bytes} (isLine : HeaderLine line) (style : LineEnd) (rest : Str) :
    lines (fromUtf8Lossy line ++ (style.text ++ rest)) = fromUtf8Lossy line :: lines rest := by
  cases style with
  | lf =>
    have cut := lines_cons rest isLine.no_lf
    rwa [isLine.stripCr] at cut
  | crlf =>
    have single : '\n' ∉ fromUtf8Lossy line ++ ['\r'] := by simpa using isLine.no_lf
    have cut := lines_cons rest single
    rwa [stripCr_terminated, List.append_assoc] at cut

theorem lines_intercalate (style : LineEnd) {headerLines : List Bytes}
    (each : ∀ line ∈ headerLines, HeaderLine line) :
    lines (fromUtf8Lossy (style.bytes.intercalate headerLines)) =
      headerLines.map fromUtf8Lossy := by
  induction headerLines with
  | nil => rfl
  | cons line rest ih =>
    have isLine := each line (by simp)
    cases rest with
    | nil =>
      rw [List.intercalate_singleton]
      exact lines_last isLine.no_lf (fromUtf8Lossy_ne_nil isLine.nonempty)
    | cons next rest =>
      have later := ih fun l member => each l (List.mem_cons_of_mem _ member)
      rw [List.intercalate_cons_cons, List.append_assoc, fromUtf8Lossy_line,
        lines_line isLine, later]
      rfl

/-! The split -/

theorem written_eq (style : LineEnd) {headerLines : List Bytes} (some' : headerLines ≠ [])
    (body : Bytes) : written style headerLines body =
      style.bytes.intercalate headerLines ++ (style.bytes ++ style.bytes ++ body) := by
  induction headerLines with
  | nil => exact absurd rfl some'
  | cons line rest ih =>
    cases rest with
    | nil => simp [written]
    | cons next rest =>
      have later := ih (by simp)
      rw [written] at later ⊢
      rw [List.flatMap_cons, List.intercalate_cons_cons, List.append_assoc, later]
      simp only [List.append_assoc]

theorem splitOutput_crlf {header body : Bytes}
    (found : position separator (header ++ (separator ++ body)) = some header.length) :
    splitOutput (header ++ (separator ++ body)) = some (header, body) := by
  have skipped : (header ++ (separator ++ body)).drop (header.length + 4) = body :=
    List.drop_length_add_append 4
  simp only [splitOutput, found, List.take_left, skipped]

theorem splitOutput_lf {header body : Bytes}
    (absent : position separator (header ++ ([10, 10] ++ body)) = none)
    (found : position [10, 10] (header ++ ([10, 10] ++ body)) = some header.length) :
    splitOutput (header ++ ([10, 10] ++ body)) = some (header, body) := by
  have skipped : (header ++ ([10, 10] ++ body)).drop (header.length + 2) = body :=
    List.drop_length_add_append 2
  simp only [splitOutput, absent, found, List.take_left, skipped]

theorem splitOutput_shape {output header body : Bytes}
    (split : splitOutput output = some (header, body)) :
    output = header ++ (separator ++ body) ∨
      (position separator output = none ∧ output = header ++ ([10, 10] ++ body)) := by
  unfold splitOutput at split
  cases first : position separator output with
  | some index =>
    rw [first] at split
    cases split
    exact Or.inl (position_split first)
  | none =>
    rw [first] at split
    dsimp only at split
    cases second : position [10, 10] output with
    | some index =>
      rw [second] at split
      cases split
      exact Or.inr ⟨rfl, position_split second⟩
    | none =>
      rw [second] at split
      cases split

section
variable {headerLines : List Bytes} (each : ∀ line ∈ headerLines, HeaderLine line)
include each

theorem no_cr_lines : 13 ∉ headerLines.flatMap (· ++ LineEnd.lf.bytes) ++ LineEnd.lf.bytes := by
  intro member
  rcases List.mem_append.mp member with inLines | isMark
  · obtain ⟨line, isLine, inside⟩ := List.mem_flatMap.mp inLines
    rcases List.mem_append.mp inside with inLine | isMark
    · exact (each line isLine).noCr inLine
    · exact absurd isMark (by decide)
  · exact absurd isMark (by decide)

/-- With plain line feeds the longer blank line can only stand in the body. -/
theorem position_written_lf (body : Bytes) :
    position separator (written .lf headerLines body) = none ↔ position separator body = none := by
  have fresh := no_cr_lines each
  have skip := position_fresh fresh [10, 13, 10] body
  rw [written, ← List.append_assoc]
  exact (iff_of_eq (congrArg (· = none) skip)).trans Option.map_eq_none_iff

theorem splitOutput_written {style : LineEnd} {body : Bytes} (some' : headerLines ≠ [])
    (unambiguous : style = .crlf ∨ position separator body = none) :
    splitOutput (written style headerLines body) =
      some (style.bytes.intercalate headerLines, body) := by
  cases style with
  | crlf =>
    have found : position separator (LineEnd.crlf.bytes.intercalate headerLines ++
        (separator ++ body)) = some (LineEnd.crlf.bytes.intercalate headerLines).length := by
      apply position_lines (by decide) some' fun line isLine => (each line isLine).noLf
      intro line isLine
      obtain ⟨x, rest, rfl⟩ := List.exists_cons_of_ne_nil (each line isLine).nonempty
      exact ⟨x, rest, rfl, fun same => (each _ isLine).noCr (by simp [same])⟩
    rw [written_eq _ some']
    exact splitOutput_crlf found
  | lf =>
    have lacks : position separator body = none := by
      rcases unambiguous with isCrlf | lacks
      · cases isCrlf
      · exact lacks
    have absent := (position_written_lf each body).mpr lacks
    have found : position [10, 10] (LineEnd.lf.bytes.intercalate headerLines ++
        ([10, 10] ++ body)) = some (LineEnd.lf.bytes.intercalate headerLines).length :=
      position_double some' (fun line isLine => (each line isLine).nonempty)
        (fun line isLine => (each line isLine).noLf) body
    rw [written_eq _ some'] at absent ⊢
    exact splitOutput_lf absent found

end

theorem parseCgiOutput_some (tables : CaseTables) {output header body : Bytes}
    (split : splitOutput output = some (header, body)) :
    parseCgiOutput tables output =
      .new ((lines (fromUtf8Lossy header)).foldl (readHeader tables) (.ok, "text/html".toList)).1
        ((lines (fromUtf8Lossy header)).foldl (readHeader tables) (.ok, "text/html".toList)).2
        body := by
  rw [parseCgiOutput, split]

theorem splitOutput_body {tables : CaseTables} {output body : Bytes} {status : StatusCode}
    {contentType : Str} (parsed : parseCgiOutput tables output = .new status contentType body)
    (usable : splitOutput output ≠ none) : ∃ header, splitOutput output = some (header, body) := by
  obtain ⟨halves, split⟩ := Option.ne_none_iff_exists'.mp usable
  obtain ⟨header, rest⟩ := halves
  rw [parseCgiOutput_some tables split] at parsed
  have same : rest = body := congrArg Response.body parsed
  exact ⟨header, by rw [split, same]⟩

/-- Without header lines there is no blank line of its own in front of the body. -/
theorem parseCgiOutput_no_lines (tables : CaseTables) (style : LineEnd) (body : Bytes) :
    parseCgiOutput tables (written style [] body) ≠
      .new (headersOf tables []).1 (headersOf tables []).2 body := by
  intro parsed
  by_cases usable : splitOutput (written style [] body) = none
  · rw [parseCgiOutput, usable] at parsed
    have status : StatusCode.internalServerError = .ok := congrArg Response.status parsed
    cases status
  · obtain ⟨header, split⟩ := splitOutput_body parsed usable
    have shape : style.bytes = header ++ separator ∨ style.bytes = header ++ [10, 10] := by
      rcases splitOutput_shape split with whole | ⟨-, whole⟩
      · left
        exact List.append_cancel_right (whole.trans (List.append_assoc _ _ _).symm)
      · right
        exact List.append_cancel_right (whole.trans (List.append_assoc _ _ _).symm)
    have lengths := shape.imp (congrArg List.length) (congrArg List.length)
    cases style with
    | lf =>
      simp only [LineEnd.bytes, separator, List.length_append, List.length_cons,
        List.length_nil] at lengths
      omega
    | crlf =>
      simp only [LineEnd.bytes, separator, List.length_append, List.length_cons,
        List.length_nil] at lengths
      have empty : header = [] := List.eq_nil_of_length_eq_zero (by omega)
      rw [empty] at shape
      revert shape
      decide

/-- The body comes out as it was written and the rest depends on the header lines alone,
exactly where there is a header line and, with plain line feeds, no `\r\n\r\n` in the body. -/
theorem parseCgiOutput_written_iff (tables : CaseTables) (style : LineEnd)
    (headerLines : List Bytes) (body : Bytes) (each : ∀ line ∈ headerLines, HeaderLine line) :
    parseCgiOutput tables (written style headerLines body) =
        .new (headersOf tables headerLines).1 (headersOf tables headerLines).2 body ↔
      headerLines ≠ [] ∧ (style = .crlf ∨ position separator body = none) := by
  constructor
  · intro parsed
    refine ⟨fun none => ?_, ?_⟩
    · rw [none] at parsed
      exact parseCgiOutput_no_lines tables style body parsed
    · cases style with
      | crlf => exact Or.inl rfl
      | lf =>
        right
        rw [← position_written_lf each]
        by_contra present
        have usable : splitOutput (written .lf headerLines body) ≠ none := by
          obtain ⟨index, found⟩ := Option.ne_none_iff_exists'.mp present
          simp [splitOutput, found]
        obtain ⟨header, split⟩ := splitOutput_body parsed usable
        -- a carriage return would stand among the header lines
        rcases splitOutput_shape split with whole | ⟨absent, -⟩
        · rw [written, ← List.append_assoc, ← List.append_assoc] at whole
          have same := List.append_cancel_right whole
          apply no_cr_lines each
          rw [same]
          simp [separator]
        · exact present absent
  · intro framed
    obtain ⟨some', unambiguous⟩ := framed
    rw [parseCgiOutput_some tables (splitOutput_written each some' unambiguous),
      lines_intercalate style each]
    rfl

def plainHeader : Bytes := utf8 "Content-Type: text/plain"

theorem headerLine_plainHeader : HeaderLine plainHeader :=
  ⟨by decide +kernel, by decide +kernel, by decide +kernel⟩

theorem parseCgiOutput_written_iff_plain :
    parseCgiOutput asciiTables (written .lf [plainHeader] (utf8 "a\n\nb")) =
        .new (headersOf asciiTables [plainHeader]).1 (headersOf asciiTables [plainHeader]).2
          (utf8 "a\n\nb") ↔
      [plainHeader] ≠ [] ∧ (LineEnd.lf = .crlf ∨ position separator (utf8 "a\n\nb") = none) :=
  parseCgiOutput_written_iff asciiTables .lf [plainHeader] (utf8 "a\n\nb")
    (by simpa using headerLine_plainHeader)

/-- A blank line of the other style in the body takes the split. -/
theorem body_cut :
    ¬∀ (tables : CaseTables) (style : LineEnd) (headerLines : List Bytes) (body : Bytes),
      headerLines ≠ [] → (∀ line ∈ headerLines, HeaderLine line) →
      parseCgiOutput tables (written style headerLines body) =
        .new (headersOf tables headerLines).1 (headersOf tables headerLines).2 body := by
  intro framed
  have parsed := framed asciiTables .lf [plainHeader] (utf8 "a\r\n\r\nb") (by simp)
    (by simpa using headerLine_plainHeader)
  have body := congrArg Response.body parsed
  have cut : (parseCgiOutput asciiTables (written .lf [plainHeader] (utf8 "a\r\n\r\nb"))).body =
      utf8 "b" := by decide +kernel
  exact absurd (cut.symm.trans body) (by decide +kernel)

end LocalServer.CgiFraming
