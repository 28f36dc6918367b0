import Mathlib.Data.List.Basic
import Mathlib.Data.UInt

/-! UTF-8 as a sequence of characters and rejected byte groups. A rejected group is what
the lossy conversion replaces by one U+FFFD, and what makes the strict conversion fail. -/

namespace LocalServer.Library.Utf8

abbrev Bytes := List UInt8

def isTail (b : UInt8) : Bool := 0x80 ≤ b.toNat && b.toNat ≤ 0xBF

/-- The bytes that may follow the first byte of a three- or four-byte sequence. Overlong
forms, surrogates and values above U+10FFFF are refused at this byte. -/
def isSecond (lead b : UInt8) : Bool :=
  if lead.toNat = 0xE0 then 0xA0 ≤ b.toNat && b.toNat ≤ 0xBF
  else if lead.toNat = 0xED then 0x80 ≤ b.toNat && b.toNat ≤ 0x9F
  else if lead.toNat = 0xF0 then 0x90 ≤ b.toNat && b.toNat ≤ 0xBF
  else if lead.toNat = 0xF4 then 0x80 ≤ b.toNat && b.toNat ≤ 0x8F
  else isTail b

def payload (b : UInt8) : Nat := b.toNat % 64

/-- One entry per character; `none` for each maximal rejected group. -/
def chunks : Bytes → List (Option Char)
  | [] => []
  | a :: rest =>
    if a.toNat < 0x80 then some (Char.ofNat a.toNat) :: chunks rest
    else if 0xC2 ≤ a.toNat ∧ a.toNat ≤ 0xDF then
      match rest with
      | [] => [none]
      | b :: rest =>
        if isTail b then some (Char.ofNat (a.toNat % 32 * 64 + payload b)) :: chunks rest
        else none :: chunks (b :: rest)
    else if 0xE0 ≤ a.toNat ∧ a.toNat ≤ 0xEF then
      match rest with
      | [] => [none]
      | b :: rest =>
        if isSecond a b then
          match rest with
          | [] => [none]
          | c :: rest =>
            if isTail c then
              some (Char.ofNat (a.toNat % 16 * 4096 + payload b * 64 + payload c)) :: chunks rest
            else none :: chunks (c :: rest)
        else none :: chunks (b :: rest)
    else if 0xF0 ≤ a.toNat ∧ a.toNat ≤ 0xF4 then
      match rest with
      | [] => [none]
      | b :: rest =>
        if isSecond a b then
          match rest with
          | [] => [none]
          | c :: rest =>
            if isTail c then
              match rest with
              | [] => [none]
              | d :: rest =>
                if isTail d then
                  some (Char.ofNat (a.toNat % 8 * 262144 + payload b * 4096 + payload c * 64 +
                    payload d)) :: chunks rest
                else none :: chunks (d :: rest)
            else none :: chunks (c :: rest)
        else none :: chunks (b :: rest)
    else none :: chunks rest

def fromUtf8Lossy (bytes : Bytes) : List Char :=
  (chunks bytes).map (·.getD '\uFFFD')

def fromUtf8 (bytes : Bytes) : Option (List Char) := (chunks bytes).mapM id

def encode (text : List Char) : Bytes := text.flatMap String.utf8EncodeChar

def utf8 (text : String) : Bytes := encode text.toList

@[simp] theorem encode_nil : encode [] = [] := rfl

@[simp] theorem encode_cons (c : Char) (text : List Char) :
    encode (c :: text) = String.utf8EncodeChar c ++ encode text := rfl

@[simp] theorem encode_append (first second : List Char) :
    encode (first ++ second) = encode first ++ encode second := List.flatMap_append

theorem encodeChar_ascii {c : Char} (ascii : c.toNat < 128) :
    String.utf8EncodeChar c = [UInt8.ofNat c.toNat] := by
  have small : c.val.toNat ≤ 127 := by have : c.toNat = c.val.toNat := rfl; omega
  simp only [String.utf8EncodeChar, if_pos small]
  rfl

theorem encode_replicate {c : Char} (ascii : c.toNat < 128) (count : Nat) :
    encode (List.replicate count c) = List.replicate count (UInt8.ofNat c.toNat) := by
  induction count with
  | zero => rfl
  | succ count ih =>
    rw [List.replicate_succ, List.replicate_succ, encode_cons, ih, encodeChar_ascii ascii,
      List.singleton_append]

theorem encodeChar_high {c : Char} (high : 128 ≤ c.toNat) :
    ∀ b ∈ String.utf8EncodeChar c, 128 ≤ b.toNat := by
  have large : ¬c.val.toNat ≤ 127 := by have : c.toNat = c.val.toNat := rfl; omega
  simp only [String.utf8EncodeChar, if_neg large]
  split_ifs <;> simp only [List.forall_mem_cons, UInt8.toNat_ofNat', List.not_mem_nil,
    false_implies, implies_true, and_true] <;> omega

/-- An ASCII byte stands in the encoding only where its character stands in the text. -/
theorem mem_encode_ascii {b : UInt8} {text : List Char} (ascii : b.toNat < 128)
    (member : b ∈ encode text) : Char.ofNat b.toNat ∈ text := by
  obtain ⟨c, inText, inBytes⟩ := List.mem_flatMap.mp member
  rcases Nat.lt_or_ge c.toNat 128 with low | high
  · rw [encodeChar_ascii low, List.mem_singleton] at inBytes
    have code : b.toNat = c.toNat := by
      rw [inBytes]
      simp only [UInt8.toNat_ofNat']
      omega
    rw [code, Char.ofNat_toNat]
    exact inText
  · have beyond := encodeChar_high high b inBytes
    omega

private theorem code_bounds (c : Char) :
    c.val.toNat < 0xD800 ∨ (0xDFFF < c.val.toNat ∧ c.val.toNat < 0x110000) := c.valid

/-! Sequences of one to four bytes -/

theorem toNat_tailByte (v : Nat) : (UInt8.ofNat (v % 64 + 128)).toNat = v % 64 + 128 := by
  simp only [UInt8.toNat_ofNat']
  omega

theorem payload_tailByte (v : Nat) : payload (UInt8.ofNat (v % 64 + 128)) = v % 64 := by
  rw [payload, toNat_tailByte]
  omega

theorem isTail_tailByte (v : Nat) : isTail (UInt8.ofNat (v % 64 + 128)) = true := by
  simp only [isTail, toNat_tailByte, Bool.and_eq_true, decide_eq_true_eq]
  omega

section
variable {v : Nat} (rest : Bytes)

theorem chunks_one (high : v ≤ 127) :
    chunks (UInt8.ofNat v :: rest) = some (Char.ofNat v) :: chunks rest := by
  have lead : (UInt8.ofNat v).toNat = v := by
    simp only [UInt8.toNat_ofNat']
    omega
  rw [chunks.eq_def]
  simp only [lead]
  rw [if_pos (by omega)]

theorem chunks_two (low : 127 < v) (high : v ≤ 2047) :
    chunks (UInt8.ofNat (v / 64 % 32 + 192) :: UInt8.ofNat (v % 64 + 128) :: rest) =
      some (Char.ofNat v) :: chunks rest := by
  have lead : (UInt8.ofNat (v / 64 % 32 + 192)).toNat = v / 64 % 32 + 192 := by
    simp only [UInt8.toNat_ofNat']
    omega
  have whole : (v / 64 % 32 + 192) % 32 * 64 + v % 64 = v := by omega
  rw [chunks.eq_def]
  simp only [lead, payload_tailByte, isTail_tailByte]
  rw [if_neg (by omega), if_pos (by omega), if_pos trivial, whole]

theorem chunks_three (low : 2047 < v) (high : v ≤ 65535) (noSurrogate : v < 0xD800 ∨ 0xDFFF < v) :
    chunks (UInt8.ofNat (v / 4096 % 16 + 224) :: UInt8.ofNat (v / 64 % 64 + 128) ::
      UInt8.ofNat (v % 64 + 128) :: rest) = some (Char.ofNat v) :: chunks rest := by
  have lead : (UInt8.ofNat (v / 4096 % 16 + 224)).toNat = v / 4096 % 16 + 224 := by
    simp only [UInt8.toNat_ofNat']
    omega
  have second : isSecond (UInt8.ofNat (v / 4096 % 16 + 224)) (UInt8.ofNat (v / 64 % 64 + 128)) =
      true := by
    simp only [isSecond, isTail, lead, toNat_tailByte]
    split_ifs <;> simp only [Bool.and_eq_true, decide_eq_true_eq] <;> omega
  have whole : (v / 4096 % 16 + 224) % 16 * 4096 + v / 64 % 64 * 64 + v % 64 = v := by omega
  rw [chunks.eq_def]
  simp only [lead, payload_tailByte, isTail_tailByte, second]
  rw [if_neg (by omega), if_neg (by omega), if_pos (by omega), if_pos trivial, if_pos trivial, whole]

theorem chunks_four (low : 65535 < v) (high : v < 0x110000) :
    chunks (UInt8.ofNat (v / 262144 % 8 + 240) :: UInt8.ofNat (v / 4096 % 64 + 128) ::
      UInt8.ofNat (v / 64 % 64 + 128) :: UInt8.ofNat (v % 64 + 128) :: rest) =
        some (Char.ofNat v) :: chunks rest := by
  have lead : (UInt8.ofNat (v / 262144 % 8 + 240)).toNat = v / 262144 % 8 + 240 := by
    simp only [UInt8.toNat_ofNat']
    omega
  have second : isSecond (UInt8.ofNat (v / 262144 % 8 + 240)) (UInt8.ofNat (v / 4096 % 64 + 128)) =
      true := by
    simp only [isSecond, isTail, lead, toNat_tailByte]
    split_ifs <;> simp only [Bool.and_eq_true, decide_eq_true_eq] <;> omega
  have whole : (v / 262144 % 8 + 240) % 8 * 262144 + v / 4096 % 64 * 4096 + v / 64 % 64 * 64 +
      v % 64 = v := by omega
  rw [chunks.eq_def]
  simp only [lead, payload_tailByte, isTail_tailByte, second]
  rw [if_neg (by omega), if_neg (by omega), if_neg (by omega), if_pos (by omega), if_pos trivial,
    if_pos trivial, if_pos trivial, whole]

end

/-- Decoding takes back one encoded character, whatever follows. -/
theorem chunks_encodeChar (c : Char) (rest : Bytes) :
    chunks (String.utf8EncodeChar c ++ rest) = some c :: chunks rest := by
  have code := code_bounds c
  have back : Char.ofNat c.val.toNat = c := Char.ofNat_toNat c
  have decoded : some c :: chunks rest = some (Char.ofNat c.val.toNat) :: chunks rest := by rw [back]
  rw [decoded]
  simp only [String.utf8EncodeChar]
  split_ifs with one two three
  · exact chunks_one rest one
  · exact chunks_two rest (by omega) two
  · exact chunks_three rest (by omega) three (by omega)
  · have high : c.val.toNat < 0x110000 := by omega
    exact chunks_four rest (by omega) high

theorem chunks_encode (text : List Char) (rest : Bytes) :
    chunks (encode text ++ rest) = text.map some ++ chunks rest := by
  induction text with
  | nil => rfl
  | cons c text ih => rw [encode_cons, List.append_assoc, chunks_encodeChar, ih]; rfl

theorem fromUtf8_encode (text : List Char) : fromUtf8 (encode text) = some text := by
  have whole := chunks_encode text []
  rw [List.append_nil, chunks, List.append_nil] at whole
  rw [fromUtf8, whole]
  induction text with
  | nil => rfl
  | cons c text ih =>
    rw [List.map_cons, List.mapM_cons, ih (by simpa [chunks] using chunks_encode text [])]
    rfl

theorem fromUtf8Lossy_encode (text : List Char) : fromUtf8Lossy (encode text) = text := by
  have whole := chunks_encode text []
  rw [List.append_nil, chunks, List.append_nil] at whole
  rw [fromUtf8Lossy, whole, List.map_map]
  exact List.map_id text

theorem encode_injective : Function.Injective encode := by
  intro first second same
  have decoded := congrArg fromUtf8Lossy same
  rwa [fromUtf8Lossy_encode, fromUtf8Lossy_encode] at decoded

theorem isTail_ascii {b : UInt8} (ascii : b.toNat < 128) : isTail b = false := by
  simp only [isTail, Bool.and_eq_false_iff, decide_eq_false_iff_not]
  omega

theorem isSecond_ascii {lead b : UInt8} (ascii : b.toNat < 128) : isSecond lead b = false := by
  unfold isSecond
  rw [isTail_ascii ascii]
  split_ifs <;> simp <;> omega

theorem chunks_append_ascii {a : UInt8} (ascii : a.toNat < 128) (bytes rest : Bytes) :
    chunks (bytes ++ a :: rest) = chunks bytes ++ chunks (a :: rest) := by
  have noTail := isTail_ascii ascii
  have noSecond (lead : UInt8) : isSecond lead a = false := isSecond_ascii ascii
  fun_induction chunks bytes with
  | case1 => rfl
  | _ =>
    simp only [List.cons_append, List.nil_append] at *
    rw [chunks.eq_def]
    simp only [*, if_true, if_false, Bool.false_eq_true, and_self]

theorem toNat_ofNat {v : Nat} (scalar : v < 0xD800 ∨ (0xDFFF < v ∧ v < 0x110000)) :
    (Char.ofNat v).toNat = v := by
  have isValid : v.isValidChar := scalar
  rw [Char.ofNat, dif_pos isValid]
  rfl

theorem isTail_bounds {b : UInt8} (tail : isTail b = true) : 0x80 ≤ b.toNat ∧ b.toNat ≤ 0xBF := by
  simpa [isTail] using tail

theorem isSecond_bounds {lead b : UInt8} (second : isSecond lead b = true) :
    0x80 ≤ b.toNat ∧ b.toNat ≤ 0xBF ∧ (lead.toNat = 0xE0 → 0xA0 ≤ b.toNat) ∧
      (lead.toNat = 0xED → b.toNat ≤ 0x9F) ∧ (lead.toNat = 0xF0 → 0x90 ≤ b.toNat) ∧
        (lead.toNat = 0xF4 → b.toNat ≤ 0x8F) := by
  unfold isSecond isTail at second
  split_ifs at second <;> simp only [Bool.and_eq_true, decide_eq_true_eq] at second <;> omega

theorem chunks_ascii {c : Char} (ascii : c.toNat < 128) {bytes : Bytes}
    (member : some c ∈ chunks bytes) : UInt8.ofNat c.toNat ∈ bytes := by
  fun_induction chunks bytes with
  | case1 => cases member
  | case2 a rest single ih =>
    rcases List.mem_cons.mp member with same | later
    · have code : c.toNat = a.toNat := by
        rw [Option.some.inj same, toNat_ofNat (Or.inl (by omega))]
      rw [code, UInt8.ofNat_toNat]
      exact List.mem_cons_self
    · exact List.mem_cons_of_mem _ (ih later)
  | case4 a _ lead b rest tail ih =>
    rcases List.mem_cons.mp member with same | later
    · have code := @toNat_ofNat (a.toNat % 32 * 64 + payload b) (by unfold payload; omega)
      rw [← Option.some.inj same] at code
      omega
    · simp [ih later]
  | case8 a _ _ lead b second c' rest tail ih =>
    rcases List.mem_cons.mp member with same | later
    · have bounds := isSecond_bounds second
      have bounds' := isTail_bounds tail
      unfold payload at same
      have code := @toNat_ofNat (a.toNat % 16 * 4096 + b.toNat % 64 * 64 + c'.toNat % 64)
        (by omega)
      rw [← Option.some.inj same] at code
      omega
    · simp [ih later]
  | case14 a _ _ _ lead b second c' third d rest tail ih =>
    rcases List.mem_cons.mp member with same | later
    · have bounds := isSecond_bounds second
      have bounds' := isTail_bounds third
      have bounds'' := isTail_bounds tail
      unfold payload at same
      have code := @toNat_ofNat
        (a.toNat % 8 * 262144 + b.toNat % 64 * 4096 + c'.toNat % 64 * 64 + d.toNat % 64)
        (by omega)
      rw [← Option.some.inj same] at code
      omega
    · simp [ih later]
  | _ => simp_all

theorem fromUtf8Lossy_ne_nil {bytes : Bytes} (nonempty : bytes ≠ []) :
    fromUtf8Lossy bytes ≠ [] := by
  contrapose! nonempty
  rw [fromUtf8Lossy, List.map_eq_nil_iff] at nonempty
  revert nonempty
  fun_cases chunks bytes <;> simp

/-- An ASCII byte ends whatever group of bytes stands before it. -/
theorem fromUtf8Lossy_append_ascii {a : UInt8} (ascii : a.toNat < 128) (bytes rest : Bytes) :
    fromUtf8Lossy (bytes ++ a :: rest) =
      fromUtf8Lossy bytes ++ Char.ofNat a.toNat :: fromUtf8Lossy rest := by
  have single : chunks (a :: rest) = some (Char.ofNat a.toNat) :: chunks rest := by
    rw [chunks.eq_def]
    exact if_pos ascii
  unfold fromUtf8Lossy
  rw [chunks_append_ascii ascii, single, List.map_append, List.map_cons]
  rfl

/-- An ASCII character stands in the text only where its byte stands. -/
theorem mem_fromUtf8Lossy_ascii {c : Char} (ascii : c.toNat < 128) {bytes : Bytes}
    (member : c ∈ fromUtf8Lossy bytes) : UInt8.ofNat c.toNat ∈ bytes := by
  obtain ⟨chunk, isChunk, rfl⟩ := List.mem_map.mp member
  cases chunk with
  | none => exact absurd ascii (by decide)
  | some c => exact chunks_ascii ascii isChunk

end LocalServer.Library.Utf8
