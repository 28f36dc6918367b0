import LocalServer.Request

/-! What the chunked decoder accepts, what it refuses and where it panics, as relations on
the bytes themselves. `Message` is the chunked coding; `Reading` is how the decoder cuts
its data, which checks less; `Breaks` are the bytes it panics on. -/

namespace LocalServer.ChunkedBody
open Library Machine Search Utf8 Text Numeral Request

/-- The data starts with a size line the decoder accepts; `rest` follows its line end. -/
structure SizeLine (data line : Bytes) (size : Nat) (rest : Bytes) : Prop where
  cut : data = line ++ (crlf ++ rest)
  first : position crlf data = some line.length
  size : chunkSize line = some size

structure Frame where
  line : Bytes
  data : Bytes
  gap : Bytes

def decoded (frames : List Frame) : Bytes := frames.flatMap Frame.data

inductive Reading : Bytes → List Frame → Bytes → Prop where
  | last {data line rest : Bytes} (sized : SizeLine data line 0 rest) : Reading data [] line
  | chunk {data rest lastLine : Bytes} {frame : Frame} {frames : List Frame}
      (sized : SizeLine data frame.line frame.data.length (frame.data ++ (frame.gap ++ rest)))
      (nonempty : frame.data ≠ []) (gap : frame.gap.length = 2)
      (tail : Reading rest frames lastLine) : Reading data (frame :: frames) lastLine

/-- The decoder reaches a chunk it panics on. `offset` counts the bytes before the data. -/
inductive Breaks : Nat → Bytes → Prop where
  /-- The end of the chunk is not a `usize`. -/
  | overflow {offset size : Nat} {data line rest : Bytes} (sized : SizeLine data line size rest)
      (large : usizeLimit ≤ offset + line.length + 2 + size) : Breaks offset data
  /-- All of the chunk's data is there, but not both bytes of the line end after it. -/
  | cut {offset size : Nat} {data line rest : Bytes} (sized : SizeLine data line size rest)
      (nonempty : size ≠ 0) (whole : size ≤ rest.length) (short : rest.length < size + 2) :
      Breaks offset data
  | later {offset : Nat} {data rest : Bytes} {frame : Frame}
      (sized : SizeLine data frame.line frame.data.length (frame.data ++ (frame.gap ++ rest)))
      (nonempty : frame.data ≠ []) (gap : frame.gap.length = 2)
      (tail : Breaks (offset + frame.line.length + 2 + frame.data.length + 2) rest) :
      Breaks offset data

theorem SizeLine.unique {data line line' rest rest' : Bytes} {size size' : Nat}
    (first : SizeLine data line size rest) (second : SizeLine data line' size' rest') :
    line = line' ∧ size = size' ∧ rest = rest' := by
  have lengths : line.length = line'.length := by
    have found := first.first
    rw [second.first, Option.some.injEq] at found
    exact found.symm
  obtain ⟨rfl, tails⟩ := List.append_inj (first.cut.symm.trans second.cut) lengths
  have sizes := first.size
  rw [second.size, Option.some.injEq] at sizes
  exact ⟨rfl, sizes.symm, List.append_cancel_left tails⟩

theorem SizeLine.length_eq {data line rest : Bytes} {size : Nat}
    (sized : SizeLine data line size rest) : data.length = line.length + 2 + rest.length := by
  have lengths := congrArg List.length sized.cut
  simp only [List.length_append, crlf, List.length_cons, List.length_nil] at lengths
  omega

theorem SizeLine.append {data line rest : Bytes} {size : Nat} (sized : SizeLine data line size rest)
    (later : Bytes) : SizeLine (data ++ later) line size (rest ++ later) where
  cut := by rw [sized.cut]; simp only [List.append_assoc]
  first := position_append later sized.first
  size := sized.size

theorem Reading.append {data lastLine : Bytes} {frames : List Frame}
    (reading : Reading data frames lastLine) (later : Bytes) :
    Reading (data ++ later) frames lastLine := by
  induction reading with
  | last sized => exact .last (sized.append later)
  | chunk sized nonempty gap tail ih =>
    have sized' := sized.append later
    rw [List.append_assoc, List.append_assoc] at sized'
    exact .chunk sized' nonempty gap ih

section
variable {before data line rest : Bytes} {size : Nat} (body : Bytes)

theorem decodeStep_outside {whole : Bytes} {pos : Nat} (outside : whole.length < pos) :
    decodeStep whole pos body = .error .sliceBounds := by
  rw [decodeStep, sliceFrom_bounds outside]
  rfl

theorem decodeStep_no_line (absent : position crlf data = none) :
    decodeStep (before ++ data) before.length body = .ok .malformed := by
  simp only [decodeStep, sliceFrom_append, absent, bind, Except.bind]
  rfl

/-- What the decoder has read once it found a line end: the line, and its size if it is one. -/
theorem decodeStep_line (cut : data = line ++ (crlf ++ rest))
    (first : position crlf data = some line.length) (fits : Addressable (before ++ data)) :
    decodeStep (before ++ data) before.length body =
      match chunkSize line with
      | none => .ok .malformed
      | some size =>
        if size = 0 then .ok (.finished body)
        else takeChunk (before ++ data) (before.length + line.length + 2) size body := by
  have lengths : data.length = line.length + 2 + rest.length := by
    rw [cut]
    simp [crlf]
    omega
  have small : before.length + data.length < usizeLimit := by
    simpa only [Addressable, List.length_append] using fits
  have lineSlice : slice (before ++ data) before.length (before.length + line.length) = .ok line := by
    rw [cut]
    exact slice_append before line _
  simp only [decodeStep, sliceFrom_append, first, bind, Except.bind,
    add_ok (show before.length + line.length < usizeLimit by omega), lineSlice]
  cases chunkSize line with
  | none => rfl
  | some size =>
    simp only [add_ok (show line.length + 2 < usizeLimit by omega),
      add_ok (show before.length + (line.length + 2) < usizeLimit by omega), Nat.add_assoc]
    rfl

theorem decodeStep_finished (sized : SizeLine data line 0 rest)
    (fits : Addressable (before ++ data)) :
    decodeStep (before ++ data) before.length body = .ok (.finished body) := by
  rw [decodeStep_line body sized.cut sized.first fits, sized.size]
  rfl

theorem decodeStep_overflow (sized : SizeLine data line size rest)
    (fits : Addressable (before ++ data))
    (large : usizeLimit ≤ before.length + line.length + 2 + size) :
    decodeStep (before ++ data) before.length body = .error .addOverflow := by
  have nonzero : size ≠ 0 := by
    have lengths := sized.length_eq
    simp only [Addressable, List.length_append] at fits
    omega
  rw [decodeStep_line body sized.cut sized.first fits, sized.size]
  simp only [if_neg nonzero, takeChunk, add_overflow large]
  rfl

theorem decodeStep_short (sized : SizeLine data line size rest)
    (fits : Addressable (before ++ data)) (short : rest.length < size)
    (small : before.length + line.length + 2 + size < usizeLimit) :
    decodeStep (before ++ data) before.length body = .ok .malformed := by
  have lengths := sized.length_eq
  rw [decodeStep_line body sized.cut sized.first fits, sized.size]
  simp only [if_neg (show size ≠ 0 by omega), takeChunk, add_ok small, bind, Except.bind]
  rw [if_pos (by simp only [List.length_append]; omega)]
  rfl

/-- A chunk whose data is there is taken; the next position is two bytes past its end. -/
theorem decodeStep_next {piece after : Bytes}
    (sized : SizeLine data line piece.length (piece ++ after)) (nonempty : piece ≠ [])
    (fits : Addressable (before ++ data))
    (small : before.length + line.length + 2 + (piece.length + 2) < usizeLimit) :
    decodeStep (before ++ data) before.length body =
      .ok (.next (before.length + line.length + 2 + (piece.length + 2)) (body ++ piece)) := by
  have lengths := sized.length_eq
  rw [List.length_append] at lengths
  have nonzero : piece.length ≠ 0 := by simpa using nonempty
  have pieceSlice : slice (before ++ data) (before.length + line.length + 2)
      (before.length + line.length + 2 + piece.length) = .ok piece := by
    rw [sized.cut, show before ++ (line ++ (crlf ++ (piece ++ after))) =
      (before ++ line ++ crlf) ++ (piece ++ after) by simp]
    have shift : (before ++ line ++ crlf).length = before.length + line.length + 2 := by
      simp [crlf, Nat.add_assoc]
    rw [← shift]
    exact slice_append _ piece after
  rw [decodeStep_line body sized.cut sized.first fits, sized.size]
  simp only [if_neg nonzero, takeChunk, bind, Except.bind, pieceSlice, add_ok small,
    add_ok (show before.length + line.length + 2 + piece.length < usizeLimit by omega),
    add_ok (show piece.length + 2 < usizeLimit by omega)]
  rw [if_neg (by simp only [List.length_append]; omega)]
  rfl

end

/-! The whole loop -/

theorem decodeLoop_succ (data : Bytes) (fuel pos : Nat) (body : Bytes) :
    decodeLoop data (fuel + 1) pos body =
      match decodeStep data pos body with
      | .error panic => .error panic
      | .ok .malformed => .ok none
      | .ok (.finished body) => .ok (some body)
      | .ok (.next pos body) => decodeLoop data fuel pos body := by
  rw [decodeLoop]
  cases decodeStep data pos body with
  | error panic => rfl
  | ok step => cases step <;> rfl

def Frame.bytes (frame : Frame) : Bytes := frame.line ++ (crlf ++ (frame.data ++ frame.gap))

theorem Frame.bytes_length {frame : Frame} (gap : frame.gap.length = 2) :
    frame.bytes.length = frame.line.length + 2 + (frame.data.length + 2) := by
  simp [Frame.bytes, crlf, gap]
  omega

theorem SizeLine.eq_frame {data rest : Bytes} {frame : Frame}
    (sized : SizeLine data frame.line frame.data.length (frame.data ++ (frame.gap ++ rest))) :
    data = frame.bytes ++ rest := by
  rw [sized.cut]
  simp [Frame.bytes]

theorem decodeLoop_frame {before data rest : Bytes} {frame : Frame} {fuel : Nat} (body : Bytes)
    (sized : SizeLine data frame.line frame.data.length (frame.data ++ (frame.gap ++ rest)))
    (nonempty : frame.data ≠ []) (gap : frame.gap.length = 2)
    (fits : Addressable (before ++ data)) :
    decodeLoop (before ++ data) (fuel + 1) before.length body =
      decodeLoop ((before ++ frame.bytes) ++ rest) fuel (before ++ frame.bytes).length
        (body ++ frame.data) := by
  have whole := sized.eq_frame
  have lengths := congrArg List.length whole
  rw [List.length_append, Frame.bytes_length gap] at lengths
  have small : before.length + frame.line.length + 2 + (frame.data.length + 2) < usizeLimit := by
    simp only [Addressable, List.length_append] at fits
    omega
  rw [decodeLoop_succ, decodeStep_next body sized nonempty fits small]
  simp only [List.length_append, Frame.bytes_length gap, List.append_assoc, ← whole, Nat.add_assoc]

theorem decodeLoop_of_reading {data lastLine : Bytes} {frames : List Frame}
    (reading : Reading data frames lastLine) (before body : Bytes) (fuel : Nat)
    (fits : Addressable (before ++ data)) (enough : data.length < fuel) :
    decodeLoop (before ++ data) fuel before.length body = .ok (some (body ++ decoded frames)) := by
  induction reading generalizing before body fuel with
  | last sized =>
    obtain ⟨fuel, rfl⟩ : ∃ n, fuel = n + 1 := ⟨fuel - 1, by omega⟩
    rw [decodeLoop_succ, decodeStep_finished body sized fits]
    simp [decoded]
  | @chunk data rest lastLine frame frames sized nonempty gap tail ih =>
    obtain ⟨fuel, rfl⟩ : ∃ n, fuel = n + 1 := ⟨fuel - 1, by omega⟩
    have whole := sized.eq_frame
    have lengths := congrArg List.length whole
    rw [List.length_append, Frame.bytes_length gap] at lengths
    rw [decodeLoop_frame body sized nonempty gap fits, ih]
    · simp [decoded]
    · rwa [List.append_assoc, ← whole]
    · omega

theorem decodeLoop_of_breaks {offset : Nat} {data : Bytes} (breaks : Breaks offset data)
    (before body : Bytes) (fuel : Nat) (fits : Addressable (before ++ data))
    (enough : data.length < fuel) (here : before.length = offset) :
    ∃ panic, panic ≠ .outOfFuel ∧
      decodeLoop (before ++ data) fuel before.length body = .error panic := by
  induction breaks generalizing before body fuel with
  | overflow sized large =>
    obtain ⟨fuel, rfl⟩ : ∃ n, fuel = n + 1 := ⟨fuel - 1, by omega⟩
    refine ⟨.addOverflow, by decide, ?_⟩
    rw [decodeLoop_succ, decodeStep_overflow body sized fits (by omega)]
  | @cut offset size data line rest sized nonempty whole short =>
    obtain ⟨piece, after, rfl, rfl⟩ : ∃ piece after, rest = piece ++ after ∧ size = piece.length :=
      ⟨rest.take size, rest.drop size, by simp, by simp [whole]⟩
    have lengths := sized.length_eq
    rw [List.length_append] at lengths short
    have nonnil : piece ≠ [] := by simpa using nonempty
    obtain ⟨fuel, rfl⟩ : ∃ n, fuel = n + 2 := ⟨fuel - 2, by
      have := List.length_pos_of_ne_nil nonnil
      omega⟩
    by_cases small : before.length + line.length + 2 + (piece.length + 2) < usizeLimit
    · -- the chunk is taken, and the next pass starts behind the end of the data
      refine ⟨.sliceBounds, by decide, ?_⟩
      rw [decodeLoop_succ, decodeStep_next body sized nonnil fits small]
      simp only
      rw [decodeLoop_succ, decodeStep_outside]
      simp only [List.length_append]
      omega
    · refine ⟨.addOverflow, by decide, ?_⟩
      have within : before.length + line.length + 2 + piece.length < usizeLimit := by
        simp only [Addressable, List.length_append] at fits
        omega
      have pieceSlice : slice (before ++ data) (before.length + line.length + 2)
          (before.length + line.length + 2 + piece.length) =
            .ok (((before ++ data).take (before.length + line.length + 2 + piece.length)).drop
              (before.length + line.length + 2)) :=
        slice_ok (by omega) (by simp only [List.length_append]; omega)
      have step : decodeStep (before ++ data) before.length body = .error .addOverflow := by
        rw [decodeStep_line body sized.cut sized.first fits, sized.size]
        simp only [if_neg nonempty, takeChunk, bind, Except.bind, add_ok within, pieceSlice]
        rw [if_neg (by simp only [List.length_append]; omega)]
        by_cases sum : piece.length + 2 < usizeLimit
        · simp only [add_ok sum, add_overflow (Nat.le_of_not_lt small)]
        · simp only [add_overflow (Nat.le_of_not_lt sum)]
      rw [decodeLoop_succ, step]
  | @later offset data rest frame sized nonempty gap tail ih =>
    obtain ⟨fuel, rfl⟩ : ∃ n, fuel = n + 1 := ⟨fuel - 1, by omega⟩
    have whole := sized.eq_frame
    have lengths := congrArg List.length whole
    rw [List.length_append, Frame.bytes_length gap] at lengths
    rw [decodeLoop_frame body sized nonempty gap fits]
    apply ih
    · rwa [List.append_assoc, ← whole]
    · omega
    · rw [List.length_append, Frame.bytes_length gap]
      omega

/-- Every run of the loop gets through, panics on a chunk it can name, or returns `None`. -/
theorem decodeLoop_cases (data before body : Bytes) (fuel : Nat)
    (fits : Addressable (before ++ data)) (enough : data.length < fuel) :
    (∃ frames lastLine, Reading data frames lastLine) ∨ Breaks before.length data ∨
      decodeLoop (before ++ data) fuel before.length body = .ok none := by
  induction fuel generalizing data before body with
  | zero => omega
  | succ fuel ih =>
    cases first : position crlf data with
    | none =>
      refine Or.inr (Or.inr ?_)
      rw [decodeLoop_succ, decodeStep_no_line body first]
    | some lineEnd =>
      have inside := position_length_le first
      have lineLength : (data.take lineEnd).length = lineEnd := by simp; omega
      have cut := position_split first
      cases known : chunkSize (data.take lineEnd) with
      | none =>
        refine Or.inr (Or.inr ?_)
        rw [decodeLoop_succ, decodeStep_line body cut (by rw [lineLength]; exact first) fits, known]
      | some size =>
        have sized : SizeLine data (data.take lineEnd) size (data.drop (lineEnd + crlf.length)) :=
          ⟨cut, by rw [lineLength]; exact first, known⟩
        generalize data.take lineEnd = line at *
        generalize data.drop (lineEnd + crlf.length) = rest at *
        have lengths := sized.length_eq
        by_cases zero : size = 0
        · subst zero
          exact Or.inl ⟨[], line, .last sized⟩
        by_cases large : usizeLimit ≤ before.length + line.length + 2 + size
        · exact Or.inr (Or.inl (.overflow sized large))
        by_cases short : rest.length < size
        · refine Or.inr (Or.inr ?_)
          rw [decodeLoop_succ, decodeStep_short body sized fits short (by omega)]
        by_cases cutOff : rest.length < size + 2
        · exact Or.inr (Or.inl (.cut sized zero (by omega) cutOff))
        -- a whole chunk: go on behind it
        obtain ⟨frame, tail, rfl, rfl, rfl, gap⟩ : ∃ (frame : Frame) (tail : Bytes),
            line = frame.line ∧ size = frame.data.length ∧
              rest = frame.data ++ (frame.gap ++ tail) ∧ frame.gap.length = 2 := by
          refine ⟨⟨line, rest.take size, (rest.drop size).take 2⟩, (rest.drop size).drop 2, rfl,
            ?_, ?_, ?_⟩
          · rw [List.length_take]; omega
          · rw [List.take_append_drop, List.take_append_drop]
          · rw [List.length_take, List.length_drop]; omega
        have nonempty : frame.data ≠ [] := by simpa using zero
        have whole := sized.eq_frame
        have frameLength := Frame.bytes_length gap
        have shrunk := congrArg List.length whole
        rw [List.length_append] at shrunk
        rcases ih tail (before ++ frame.bytes) (body ++ frame.data)
            (by rwa [List.append_assoc, ← whole]) (by omega) with
          ⟨frames, lastLine, reading⟩ | breaks | refused
        · exact Or.inl ⟨frame :: frames, lastLine, .chunk sized nonempty gap reading⟩
        · refine Or.inr (Or.inl (.later sized nonempty gap ?_))
          rw [List.length_append, frameLength] at breaks
          simpa only [Nat.add_assoc] using breaks
        · refine Or.inr (Or.inr ?_)
          rw [decodeLoop_frame body sized nonempty gap fits, refused]

/-- The decoder returns a body exactly for the data it can cut, and it is the data of the chunks. -/
theorem decodeChunked_eq_some {data body : Bytes} (fits : Addressable data) :
    decodeChunked data = .ok (some body) ↔
      ∃ frames lastLine, Reading data frames lastLine ∧ body = decoded frames := by
  constructor
  · intro returned
    rcases decodeLoop_cases data [] [] (data.length + 1) fits (by omega) with
      ⟨frames, lastLine, reading⟩ | breaks | refused
    · have result := decodeLoop_of_reading reading [] [] (data.length + 1) fits (by omega)
      have same := result.symm.trans returned
      simp only [List.nil_append, Except.ok.injEq, Option.some.injEq] at same
      exact ⟨frames, lastLine, reading, same.symm⟩
    · obtain ⟨panic, -, failed⟩ :=
        decodeLoop_of_breaks breaks [] [] (data.length + 1) fits (by omega) rfl
      cases failed.symm.trans returned
    · cases refused.symm.trans returned
  · intro cut
    obtain ⟨frames, lastLine, reading, rfl⟩ := cut
    exact decodeLoop_of_reading reading [] [] (data.length + 1) fits (by omega)

/-- The decoder panics exactly on the data it breaks on. -/
theorem decodeChunked_panics {data : Bytes} (fits : Addressable data) :
    (∃ panic, decodeChunked data = .error panic) ↔ Breaks 0 data := by
  constructor
  · intro panics
    obtain ⟨panic, failed⟩ := panics
    rcases decodeLoop_cases data [] [] (data.length + 1) fits (by omega) with
      ⟨frames, lastLine, reading⟩ | breaks | refused
    · have result := decodeLoop_of_reading reading [] [] (data.length + 1) fits (by omega)
      cases result.symm.trans failed
    · exact breaks
    · cases refused.symm.trans failed
  · intro breaks
    obtain ⟨panic, -, failed⟩ :=
      decodeLoop_of_breaks breaks [] [] (data.length + 1) fits (by omega) rfl
    exact ⟨panic, failed⟩

/-- The bound on the number of passes is never what ends the loop. -/
theorem decodeChunked_fuel {data : Bytes} (fits : Addressable data) :
    decodeChunked data ≠ .error .outOfFuel := by
  intro failed
  have breaks := (decodeChunked_panics fits).mp ⟨_, failed⟩
  obtain ⟨panic, different, result⟩ :=
    decodeLoop_of_breaks breaks [] [] (data.length + 1) fits (by omega) rfl
  have same := result.symm.trans failed
  rw [Except.error.injEq] at same
  exact different same

/-! The chunked coding -/

def isBlank (c : Char) : Bool := c == ' ' || c == '\t'

/-- A size in hexadecimal: digits of either case, any leading zeros, blanks around them. -/
structure SizeText (line : Bytes) (size : Nat) : Prop where
  parts : ∃ before digits after : Str, line = encode (before ++ digits ++ after) ∧
    (∀ c ∈ before, isBlank c = true) ∧ (∀ c ∈ after, isBlank c = true) ∧
      IsDigits 16 digits ∧ value 16 digits = size

/-- `Message text body`: the text is a chunked coding of the body, up to the line end of
its last, zero-size line. -/
inductive Message : Bytes → Bytes → Prop where
  | last {line : Bytes} (zero : SizeText line 0) : Message (line ++ crlf) []
  | chunk {line data text body : Bytes} (sized : SizeText line data.length) (nonempty : data ≠ [])
      (tail : Message text body) : Message (line ++ (crlf ++ (data ++ (crlf ++ text)))) (data ++ body)

structure Frame.Strict (frame : Frame) : Prop where
  line : SizeText frame.line frame.data.length
  gap : frame.gap = crlf

theorem isWhitespace_blank {c : Char} (blank : isBlank c = true) : isWhitespace c = true := by
  rcases (Bool.or_eq_true _ _).mp blank with space | tab
  · rw [beq_iff_eq.mp space]; rfl
  · rw [beq_iff_eq.mp tab]; rfl

theorem SizeText.no_cr {line : Bytes} {size : Nat} (sized : SizeText line size) : 13 ∉ line := by
  obtain ⟨before, digits, after, rfl, blankBefore, blankAfter, isDigits, -⟩ := sized.parts
  have plain : ∀ c ∈ before ++ digits ++ after, c.toNat < 128 ∧ c.toNat ≠ 13 := by
    intro c member
    have blankCode : ∀ d : Char, isBlank d = true → d.toNat < 128 ∧ d.toNat ≠ 13 := by
      intro d blank
      rcases (Bool.or_eq_true _ _).mp blank with space | tab
      · rw [beq_iff_eq.mp space]; decide
      · rw [beq_iff_eq.mp tab]; decide
    simp only [List.mem_append] at member
    rcases member with (member | member) | member
    · exact blankCode c (blankBefore c member)
    · have range := toDigit_ascii (isDigits.2 c member)
      omega
    · exact blankCode c (blankAfter c member)
  intro member
  obtain ⟨c, inText, inBytes⟩ := List.mem_flatMap.mp member
  obtain ⟨ascii, notCr⟩ := plain c inText
  rw [encodeChar_ascii ascii, List.mem_singleton] at inBytes
  have code := congrArg UInt8.toNat inBytes
  simp only [UInt8.toNat_ofNat'] at code
  have thirteen : (13 : UInt8).toNat = 13 := rfl
  omega

theorem SizeText.chunkSize {line : Bytes} {size : Nat} (sized : SizeText line size)
    (fits : size < usizeLimit) : chunkSize line = some size := by
  obtain ⟨before, digits, after, rfl, blankBefore, blankAfter, isDigits, rfl⟩ := sized.parts
  have unpadded : Unpadded digits := by
    constructor
    · intro c first
      exact isWhitespace_digit (isDigits.2 c (List.mem_of_mem_head? first))
    · intro c last
      exact isWhitespace_digit (isDigits.2 c (List.mem_of_mem_getLast? last))
  have trimmed : trim (before ++ digits ++ after) = digits := trim_pad unpadded
    (fun c member => isWhitespace_blank (blankBefore c member))
    (fun c member => isWhitespace_blank (blankAfter c member))
  simp only [Request.chunkSize, fromUtf8_encode, trimmed]
  exact fromStrRadix_digits (by decide) isDigits fits

theorem SizeText.sizeLine {line : Bytes} {size : Nat} (sized : SizeText line size)
    (rest : Bytes) (fits : size < usizeLimit) : SizeLine (line ++ (crlf ++ rest)) line size rest :=
  ⟨rfl, position_after rest sized.no_cr, sized.chunkSize fits⟩

/-- The decoder cuts a message into the chunks it was written from. -/
theorem Message.reading {text body : Bytes} (message : Message text body) (rest : Bytes)
    (fits : text.length < usizeLimit) :
    ∃ frames lastLine, Reading (text ++ rest) frames lastLine ∧ body = decoded frames ∧
      (∀ frame ∈ frames, frame.Strict) ∧ SizeText lastLine 0 := by
  induction message with
  | @last line zero =>
    have sized := zero.sizeLine rest (by decide)
    rw [← List.append_assoc] at sized
    exact ⟨[], line, .last sized, rfl, by simp, zero⟩
  | @chunk line data text body sized nonempty tail ih =>
    have lengths : data.length < usizeLimit ∧ text.length < usizeLimit := by
      simp only [List.length_append] at fits
      omega
    obtain ⟨frames, lastLine, reading, rfl, strict, zero⟩ := ih lengths.2
    refine ⟨⟨line, data, crlf⟩ :: frames, lastLine, .chunk ?_ nonempty rfl reading, rfl, ?_, zero⟩
    · simpa using sized.sizeLine (data ++ (crlf ++ (text ++ rest))) lengths.1
    · intro frame member
      rcases List.mem_cons.mp member with rfl | later
      · exact ⟨sized, rfl⟩
      · exact strict frame later

/-- A reading with strict frames is a message at the front of the data. -/
theorem Reading.message {data lastLine : Bytes} {frames : List Frame}
    (reading : Reading data frames lastLine) (strict : ∀ frame ∈ frames, frame.Strict)
    (zero : SizeText lastLine 0) :
    ∃ text rest, data = text ++ rest ∧ Message text (decoded frames) := by
  induction reading with
  | @last data line rest sized =>
    exact ⟨line ++ crlf, rest, by rw [sized.cut, List.append_assoc], .last zero⟩
  | @chunk data rest lastLine frame frames sized nonempty gap tail ih =>
    obtain ⟨text, after, rfl, message⟩ := ih (fun f member => strict f (by simp [member])) zero
    have this := strict frame (by simp)
    refine ⟨frame.line ++ (crlf ++ (frame.data ++ (crlf ++ text))), after, ?_,
      .chunk this.line nonempty message⟩
    rw [sized.cut, this.gap]
    simp only [List.append_assoc]

theorem Message.decoded {text body : Bytes} (message : Message text body) (after : Bytes)
    (fits : Addressable (text ++ after)) : decodeChunked (text ++ after) = .ok (some body) := by
  have short : text.length < usizeLimit := by
    simp only [Addressable, List.length_append] at fits
    omega
  obtain ⟨frames, lastLine, reading, rfl, -⟩ := message.reading after short
  exact (decodeChunked_eq_some fits).mpr ⟨frames, lastLine, reading, rfl⟩

theorem Reading.unique {data lastLine lastLine' : Bytes} {frames frames' : List Frame}
    (first : Reading data frames lastLine) (second : Reading data frames' lastLine') :
    frames = frames' ∧ lastLine = lastLine' := by
  induction first generalizing frames' lastLine' with
  | last sized =>
    cases second with
    | last sized' => exact ⟨rfl, (sized.unique sized').1⟩
    | chunk sized' nonempty' =>
      have zero := (sized.unique sized').2.1
      exact absurd (List.eq_nil_of_length_eq_zero zero.symm) nonempty'
  | @chunk data rest lastLine frame frames sized nonempty gap tail ih =>
    cases second with
    | last sized' =>
      have zero := (sized.unique sized').2.1
      exact absurd (List.eq_nil_of_length_eq_zero zero) nonempty
    | @chunk data rest' lastLine' frame' frames' sized' nonempty' gap' tail' =>
      obtain ⟨sameLine, sameSize, sameRest⟩ := sized.unique sized'
      obtain ⟨sameData, sameAfter⟩ := List.append_inj sameRest sameSize
      obtain ⟨sameGap, rfl⟩ := List.append_inj sameAfter (gap.trans gap'.symm)
      obtain ⟨rfl, rfl⟩ := ih tail'
      refine ⟨?_, rfl⟩
      cases frame
      cases frame'
      cases sameLine
      cases sameData
      cases sameGap
      rfl

/-- What the decoder takes for a message is one exactly when each size line it reads is
hexadecimal digits with blanks around them and each pair of bytes it skips is a line end. -/
theorem chunked_sound_iff (data : Bytes) (fits : Addressable data) :
    (∀ body, decodeChunked data = .ok (some body) →
        ∃ text rest, data = text ++ rest ∧ Message text body) ↔
      ∀ frames lastLine, Reading data frames lastLine →
        (∀ frame ∈ frames, frame.Strict) ∧ SizeText lastLine 0 := by
  constructor
  · intro sound frames lastLine reading
    obtain ⟨text, rest, cut, message⟩ := sound (decoded frames)
      ((decodeChunked_eq_some fits).mpr ⟨frames, lastLine, reading, rfl⟩)
    have short : text.length < usizeLimit := by
      have lengths := congrArg List.length cut
      rw [List.length_append] at lengths
      have bound : data.length < usizeLimit := fits
      omega
    obtain ⟨frames', lastLine', reading', -, strict, zero⟩ := message.reading rest short
    rw [← cut] at reading'
    obtain ⟨rfl, rfl⟩ := reading.unique reading'
    exact ⟨strict, zero⟩
  · intro strict body returned
    obtain ⟨frames, lastLine, reading, rfl⟩ := (decodeChunked_eq_some fits).mp returned
    obtain ⟨strictFrames, zero⟩ := strict frames lastLine reading
    exact reading.message strictFrames zero

def missingLineEnd : Bytes := utf8 "5\r\nhelloXX0\r\n"

theorem chunked_sound_iff_missingLineEnd :
    (∀ body, decodeChunked missingLineEnd = .ok (some body) →
        ∃ text rest, missingLineEnd = text ++ rest ∧ Message text body) ↔
      ∀ frames lastLine, Reading missingLineEnd frames lastLine →
        (∀ frame ∈ frames, frame.Strict) ∧ SizeText lastLine 0 :=
  chunked_sound_iff missingLineEnd (by decide +kernel)

/-- It is decoded to `hello` all the same. -/
theorem decodeChunked_unsound :
    ¬∀ data body, Addressable data → decodeChunked data = .ok (some body) →
      ∃ text rest, data = text ++ rest ∧ Message text body := by
  intro sound
  have first : SizeLine missingLineEnd (utf8 "5") (utf8 "hello").length
      (utf8 "hello" ++ (utf8 "XX" ++ utf8 "0\r\n")) :=
    ⟨by decide +kernel, by decide +kernel, by decide +kernel⟩
  have last : SizeLine (utf8 "0\r\n") (utf8 "0") 0 [] :=
    ⟨by decide +kernel, by decide +kernel, by decide +kernel⟩
  have reading : Reading missingLineEnd [⟨utf8 "5", utf8 "hello", utf8 "XX"⟩] (utf8 "0") :=
    .chunk first (by decide +kernel) (by decide +kernel) (.last last)
  obtain ⟨text, rest, cut, message⟩ := sound missingLineEnd (utf8 "hello") (by decide +kernel)
    (by decide +kernel)
  have short : text.length < usizeLimit := by
    have lengths := congrArg List.length cut
    have whole : missingLineEnd.length = 13 := by decide +kernel
    rw [whole, List.length_append] at lengths
    have limit : 13 < usizeLimit := by decide
    omega
  obtain ⟨frames, lastLine, reading', -, strict, -⟩ := message.reading rest short
  rw [← cut] at reading'
  obtain ⟨rfl, -⟩ := reading.unique reading'
  exact absurd (strict _ (List.mem_singleton.mpr rfl)).gap (by decide +kernel)

end LocalServer.ChunkedBody
