import LocalServer.ChunkedBody

/-! Where a request's head ends, what its body is, and that writing a request and parsing
it gives it back. -/

namespace LocalServer.RequestFraming
open Library Machine Search Utf8 Text Numeral Request ChunkedBody

structure HeaderBlock (buffer section' rest : Bytes) : Prop where
  cut : buffer = section' ++ (separator ++ rest)
  first : position separator buffer = some section'.length

theorem HeaderBlock.unique {buffer first second rest rest' : Bytes}
    (block : HeaderBlock buffer first rest) (block' : HeaderBlock buffer second rest') :
    first = second ∧ rest = rest' := by
  have lengths := block.first
  rw [block'.first, Option.some.injEq] at lengths
  obtain ⟨same, tails⟩ := List.append_inj (block.cut.symm.trans block'.cut) lengths.symm
  exact ⟨same, List.append_cancel_left tails⟩

theorem headerBlock_of_position {buffer : Bytes} {headerEnd : Nat}
    (found : position separator buffer = some headerEnd) :
    HeaderBlock buffer (buffer.take headerEnd) (buffer.drop (headerEnd + 4)) := by
  have inside := position_length_le found
  refine ⟨position_split found, ?_⟩
  rw [found, List.length_take, Nat.min_eq_left (by omega)]

theorem HeaderBlock.append {buffer section' rest : Bytes} (block : HeaderBlock buffer section' rest)
    (later : Bytes) : HeaderBlock (buffer ++ later) section' (rest ++ later) :=
  ⟨by rw [block.cut]; simp only [List.append_assoc], position_append later block.first⟩

/-- The parser after the header block: the body is decoded if the headers say so, and
everything that follows otherwise. -/
def bodyOf (tables : CaseTables) (head : Head) (rest : Bytes) : Checked (Option Request) :=
  if isChunked tables head.headers then
    match decodeChunked rest with
    | .error panic => .error panic
    | .ok none => .ok none
    | .ok (some body) => .ok (some (head.withBody body))
  else .ok (some (head.withBody rest))

variable {tables : CaseTables}

theorem parse_block {buffer section' rest : Bytes} (block : HeaderBlock buffer section' rest)
    (fits : Addressable buffer) :
    parse tables buffer =
      match parseHead tables (fromUtf8Lossy section') with
      | none => .ok none
      | some head => bodyOf tables head rest := by
  have small : section'.length + 4 < usizeLimit := by
    have inside := position_length_le block.first
    have four : separator.length = 4 := rfl
    have bound : buffer.length < usizeLimit := fits
    rcases Nat.lt_or_ge (section'.length + 4) usizeLimit with within | beyond
    · exact within
    · omega
  have head : slice buffer 0 section'.length = .ok section' := by
    have cut := slice_append ([] : Bytes) section' (separator ++ rest)
    rw [List.nil_append, ← block.cut] at cut
    simpa using cut
  have tail : sliceFrom buffer (section'.length + 4) = .ok rest := by
    have cut := sliceFrom_append (section' ++ separator) rest
    rw [List.append_assoc, ← block.cut, List.length_append] at cut
    exact cut
  simp only [parse, block.first, bind, Except.bind, head, add_ok small, tail]
  cases parseHead tables (fromUtf8Lossy section') with
  | none => rfl
  | some known =>
    simp only [bodyOf]
    split_ifs
    · rcases decodeChunked rest with panic | (_ | body) <;> rfl
    · rfl

theorem parse_no_block {buffer : Bytes} (absent : position separator buffer = none) :
    parse tables buffer = .ok none := by
  simp only [parse, absent]
  rfl

/-- The head in front of the blank line and the body behind it: all that is there, or the
data of the chunks if the head announces some. -/
def Carries (tables : CaseTables) (buffer : Bytes) (head : Head) (body : Bytes) : Prop :=
  ∃ section' rest, HeaderBlock buffer section' rest ∧
    parseHead tables (fromUtf8Lossy section') = some head ∧
    if isChunked tables head.headers = true then
      ∃ frames lastLine, Reading rest frames lastLine ∧ body = decoded frames
    else body = rest

theorem HeaderBlock.fits {buffer section' rest : Bytes} (block : HeaderBlock buffer section' rest)
    (fits : Addressable buffer) : Addressable rest := by
  have lengths := congrArg List.length block.cut
  simp only [List.length_append] at lengths
  have bound : buffer.length < usizeLimit := fits
  unfold Addressable
  omega

theorem parse_eq_some {buffer : Bytes} {request : Request} (fits : Addressable buffer) :
    parse tables buffer = .ok (some request) ↔
      ∃ head body, Carries tables buffer head body ∧ request = head.withBody body := by
  constructor
  · intro parsed
    cases found : position separator buffer with
    | none =>
      rw [parse_no_block found] at parsed
      cases parsed
    | some headerEnd =>
      have block := headerBlock_of_position found
      rw [parse_block block fits] at parsed
      cases known : parseHead tables (fromUtf8Lossy (buffer.take headerEnd)) with
      | none =>
        rw [known] at parsed
        cases parsed
      | some head =>
        rw [known] at parsed
        simp only [bodyOf] at parsed
        split_ifs at parsed with chunked
        · split at parsed
          · cases parsed
          · cases parsed
          · next body decodedTo =>
            cases parsed
            refine ⟨head, body, ⟨_, _, block, known, ?_⟩, rfl⟩
            rw [if_pos chunked]
            exact (decodeChunked_eq_some (block.fits fits)).mp decodedTo
        · cases parsed
          exact ⟨head, _, ⟨_, _, block, known, by rw [if_neg chunked]⟩, rfl⟩
  · intro carried
    obtain ⟨head, body, ⟨section', rest, block, known, follows⟩, rfl⟩ := carried
    rw [parse_block block fits, known]
    simp only [bodyOf]
    split_ifs at follows ⊢ with chunked
    · rw [(decodeChunked_eq_some (block.fits fits)).mpr follows]
    · rw [follows]

/-- Bytes that arrive later leave the head as it is. -/
theorem Carries.head_unique {first later body all : Bytes} {head head' : Head}
    (early : Carries tables first head body) (whole : Carries tables (first ++ later) head' all) :
    head = head' := by
  obtain ⟨section', rest, block, known, -⟩ := early
  obtain ⟨other, rest', block', known', -⟩ := whole
  obtain ⟨rfl, -⟩ := (block.append later).unique block'
  exact Option.some.inj (known.symm.trans known')

theorem parse_head {buffer section' rest : Bytes} {request : Request}
    (block : HeaderBlock buffer section' rest) (fits : Addressable buffer)
    (parsed : parse tables buffer = .ok (some request)) :
    ∃ head, parseHead tables (fromUtf8Lossy section') = some head ∧
      request = head.withBody request.body := by
  rw [parse_block block fits] at parsed
  cases known : parseHead tables (fromUtf8Lossy section') with
  | none =>
    rw [known] at parsed
    cases parsed
  | some head =>
    rw [known] at parsed
    refine ⟨head, rfl, ?_⟩
    simp only [bodyOf] at parsed
    split_ifs at parsed
    · split at parsed
      · cases parsed
      · cases parsed
      · cases parsed
        rfl
    · cases parsed
      rfl

/-- Bytes that arrive later change the body at most. -/
theorem parse_later {first later : Bytes} {early whole : Request}
    (fits : Addressable (first ++ later)) (parsed : parse tables first = .ok (some early))
    (parsed' : parse tables (first ++ later) = .ok (some whole)) :
    early = { whole with body := early.body } := by
  have firstFits : Addressable first := by
    simp only [Addressable, List.length_append] at fits ⊢
    omega
  cases found : position separator first with
  | none =>
    rw [parse_no_block found] at parsed
    cases parsed
  | some headerEnd =>
    have block := headerBlock_of_position found
    obtain ⟨head, known, same⟩ := parse_head block firstFits parsed
    obtain ⟨head', known', same'⟩ := parse_head (block.append later) fits parsed'
    rw [known, Option.some.injEq] at known'
    subst known'
    rw [same', same]
    rfl

def extended (tables : CaseTables) (request : Request) (later : Bytes) : Request :=
  if isChunked tables request.headers then request
  else { request with body := request.body ++ later }

/-- Bytes that arrive later leave the head as it is, and a chunked body too. -/
theorem Carries.append {buffer body : Bytes} {head : Head}
    (carried : Carries tables buffer head body) (later : Bytes) :
    ∃ all, Carries tables (buffer ++ later) head all ∧
      extended tables (head.withBody body) later = head.withBody all := by
  obtain ⟨section', rest, block, known, follows⟩ := carried
  unfold extended
  by_cases chunked : isChunked tables head.headers = true
  · rw [if_pos chunked] at follows
    obtain ⟨frames, lastLine, reading, whole⟩ := follows
    refine ⟨body, ⟨section', rest ++ later, block.append later, known, ?_⟩, if_pos chunked⟩
    rw [if_pos chunked]
    exact ⟨frames, lastLine, reading.append later, whole⟩
  · rw [if_neg chunked] at follows
    refine ⟨body ++ later, ⟨section', rest ++ later, block.append later, known, ?_⟩, if_neg chunked⟩
    rw [if_neg chunked, follows]

/-- What was parsed stays parsed when more bytes arrive: nothing in the head changes, and of
the body only that the new bytes follow, if it is not chunked. -/
theorem parse_append (buffer later : Bytes) (request : Request)
    (fits : Addressable (buffer ++ later)) (parsed : parse tables buffer = .ok (some request)) :
    parse tables (buffer ++ later) = .ok (some (extended tables request later)) := by
  have firstFits : Addressable buffer := by
    simp only [Addressable, List.length_append] at fits ⊢
    omega
  obtain ⟨head, body, carried, rfl⟩ := (parse_eq_some firstFits).mp parsed
  obtain ⟨all, carried', same⟩ := carried.append later
  exact (parse_eq_some fits).mpr ⟨head, all, carried', same⟩

def cutGreeting : Bytes := utf8 "POST / HTTP/1.1\r\n\r\nhel"

theorem parse_append_greeting : ∃ request, parse asciiTables (cutGreeting ++ utf8 "lo") =
    .ok (some (extended asciiTables request (utf8 "lo"))) := by
  have returned : (parse asciiTables cutGreeting).map Option.isSome = .ok true := by
    decide +kernel
  cases result : parse asciiTables cutGreeting with
  | error panic =>
    rw [result] at returned
    cases returned
  | ok found =>
    rw [result] at returned
    obtain ⟨request, rfl⟩ := Option.isSome_iff_exists.mp (Except.ok.inj returned)
    exact ⟨request, parse_append _ _ request (by decide +kernel) result⟩

/-- The head announces a chunked body, and the decoder breaks on what follows: a chunk whose
end is no `usize`, or whose data is there without both of the bytes that end it. -/
def BrokenBody (tables : CaseTables) (buffer : Bytes) : Prop :=
  ∃ section' rest head, HeaderBlock buffer section' rest ∧
    parseHead tables (fromUtf8Lossy section') = some head ∧
    isChunked tables head.headers = true ∧ Breaks 0 rest

theorem parse_panics {buffer : Bytes} (fits : Addressable buffer) :
    (∃ panic, parse tables buffer = .error panic) ↔ BrokenBody tables buffer := by
  unfold BrokenBody
  cases found : position separator buffer with
  | none =>
    refine iff_of_false ?_ ?_
    · intro panics
      obtain ⟨panic, failed⟩ := panics
      cases failed.symm.trans (parse_no_block found)
    · intro breaks
      obtain ⟨section', rest, head, block, -⟩ := breaks
      cases block.first.symm.trans found
  | some headerEnd =>
    have block := headerBlock_of_position found
    generalize buffer.take headerEnd = section' at block
    generalize buffer.drop (headerEnd + 4) = rest at block
    rw [parse_block block fits]
    cases known : parseHead tables (fromUtf8Lossy section') with
    | none =>
      apply iff_of_false (by simp)
      intro breaks
      obtain ⟨other, rest', head, block', known', -⟩ := breaks
      obtain ⟨rfl, -⟩ := block.unique block'
      cases known.symm.trans known'
    | some head =>
      simp only [bodyOf]
      by_cases chunked : isChunked tables head.headers = true
      · rw [if_pos chunked]
        constructor
        · intro panics
          obtain ⟨panic, failed⟩ := panics
          split at failed
          · next panic' decodedTo =>
            exact ⟨section', rest, head, block, known, chunked,
              (decodeChunked_panics (block.fits fits)).mp ⟨panic', decodedTo⟩⟩
          · cases failed
          · cases failed
        · intro broken
          obtain ⟨other, rest', head', block', known', -, breaks⟩ := broken
          obtain ⟨rfl, rfl⟩ := block.unique block'
          obtain ⟨panic, failed⟩ := (decodeChunked_panics (block.fits fits)).mpr breaks
          exact ⟨panic, by rw [failed]⟩
      · rw [if_neg chunked]
        apply iff_of_false (by simp)
        intro broken
        obtain ⟨other, rest', head', block', known', chunked', -⟩ := broken
        obtain ⟨rfl, -⟩ := block.unique block'
        cases known.symm.trans known'
        exact chunked chunked'

/-- The parser returns on every buffer except those with a broken body. -/
theorem parse_returns_iff (tables : CaseTables) (buffer : Bytes) (fits : Addressable buffer) :
    (∃ result, parse tables buffer = .ok result) ↔ ¬BrokenBody tables buffer := by
  rw [← parse_panics fits]
  cases parse tables buffer with
  | error panic => simp
  | ok result => simp

def truncatedChunk : Bytes :=
  utf8 "POST /upload HTTP/1.1\r\nTransfer-Encoding: chunked\r\n\r\n5\r\nhello"

theorem parse_returns_iff_truncated :
    (∃ result, parse asciiTables truncatedChunk = .ok result) ↔
      ¬BrokenBody asciiTables truncatedChunk :=
  parse_returns_iff asciiTables truncatedChunk (by decide +kernel)

theorem parse_panics_on_truncated :
    ¬∀ (tables : CaseTables) (buffer : Bytes), Addressable buffer →
      ∃ result, parse tables buffer = .ok result := by
  intro returns
  obtain ⟨result, returned⟩ := returns asciiTables truncatedChunk (by decide +kernel)
  have panics : (parse asciiTables truncatedChunk).toBool = false := by decide +kernel
  rw [returned] at panics
  cases panics

/-- With a Content-Length of `n` the body is cut to `n` bytes, and refused while fewer are
there, exactly when `n` bytes follow the blank line. -/
theorem content_length_iff (tables : CaseTables) (buffer section' rest : Bytes) (head : Head)
    (n : Nat) (fits : Addressable buffer) (block : HeaderBlock buffer section' rest)
    (known : parseHead tables (fromUtf8Lossy section') = some head)
    (plain : isChunked tables head.headers = false)
    (declared : declaredLength head.headers = some n) :
    ((n ≤ rest.length → ∃ request, parse tables buffer = .ok (some request) ∧
          request.body = rest.take n) ∧
        (rest.length < n → parse tables buffer = .ok none)) ↔ rest.length = n := by
  have parsed : parse tables buffer = .ok (some (head.withBody rest)) := by
    rw [parse_block block fits, known]
    simp [bodyOf, plain]
  rw [parsed]
  constructor
  · intro framed
    obtain ⟨enough, short⟩ := framed
    rcases Nat.lt_or_ge rest.length n with less | atLeast
    · cases short less
    · obtain ⟨request, same, body⟩ := enough atLeast
      rw [Except.ok.injEq, Option.some.injEq] at same
      subst same
      have lengths := congrArg List.length body
      rw [List.length_take, Nat.min_eq_left atLeast] at lengths
      exact lengths
  · intro same
    subst same
    exact ⟨fun _ => ⟨_, rfl, by simp [Head.withBody]⟩, fun less => by omega⟩

def shortUpload : Bytes := utf8 "POST /upload HTTP/1.1\r\nContent-Length: 2\r\n\r\nx"

theorem content_length_iff_short :
    ((2 ≤ 1 → ∃ request, parse asciiTables shortUpload = .ok (some request) ∧
          request.body = (utf8 "x").take 2) ∧
        (1 < 2 → parse asciiTables shortUpload = .ok none)) ↔ 1 = 2 := by
  obtain ⟨head, known⟩ : ∃ head, parseHead asciiTables
      "POST /upload HTTP/1.1\r\nContent-Length: 2".toList = some head :=
    Option.isSome_iff_exists.mp (by decide +kernel)
  have fields : (isChunked asciiTables head.headers, declaredLength head.headers) =
      (false, some 2) := by
    have whole : (parseHead asciiTables "POST /upload HTTP/1.1\r\nContent-Length: 2".toList).map
        (fun head => (isChunked asciiTables head.headers, declaredLength head.headers)) =
          some (false, some 2) := by decide +kernel
    rw [known] at whole
    exact Option.some.inj whole
  obtain ⟨plain, declared⟩ := Prod.mk.inj fields
  exact content_length_iff asciiTables shortUpload
    (utf8 "POST /upload HTTP/1.1\r\nContent-Length: 2") (utf8 "x") head 2 (by decide +kernel)
    ⟨by decide +kernel, by decide +kernel⟩ (by rw [utf8, fromUtf8Lossy_encode]; exact known)
    plain declared

/-- The upload cut short is parsed as if it were complete. -/
theorem content_length_ignored :
    ¬∀ (tables : CaseTables) (buffer section' rest : Bytes) (head : Head) (n : Nat),
      Addressable buffer → HeaderBlock buffer section' rest →
      parseHead tables (fromUtf8Lossy section') = some head →
      isChunked tables head.headers = false → declaredLength head.headers = some n →
      (n ≤ rest.length → ∃ request, parse tables buffer = .ok (some request) ∧
          request.body = rest.take n) ∧
        (rest.length < n → parse tables buffer = .ok none) := by
  intro framed
  obtain ⟨head, known⟩ : ∃ head, parseHead asciiTables
      "POST /upload HTTP/1.1\r\nContent-Length: 2".toList = some head :=
    Option.isSome_iff_exists.mp (by decide +kernel)
  have whole : (parseHead asciiTables "POST /upload HTTP/1.1\r\nContent-Length: 2".toList).map
      (fun head => (isChunked asciiTables head.headers, declaredLength head.headers)) =
        some (false, some 2) := by decide +kernel
  rw [known] at whole
  obtain ⟨plain, declared⟩ := Prod.mk.inj (Option.some.inj whole)
  have refused := (framed asciiTables shortUpload
    (utf8 "POST /upload HTTP/1.1\r\nContent-Length: 2") (utf8 "x") head 2 (by decide +kernel)
    ⟨by decide +kernel, by decide +kernel⟩ (by rw [utf8, fromUtf8Lossy_encode]; exact known)
    plain declared).2 (by decide)
  have parsed : (parse asciiTables shortUpload).map Option.isSome = .ok true := by decide +kernel
  rw [refused] at parsed
  cases parsed

end LocalServer.RequestFraming
