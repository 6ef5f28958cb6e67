import Cadeloop.Reasoning.Numerals

/-!
# A reader of HTTP/1 responses (RFC 7230)

What a client makes of the bytes of a connection: a status line, header fields, and a body whose
end is decided as RFC 7230 section 3.3.3 says.  The lemmas say what is read back from a response
that was written field by field and chunk by chunk, whatever follows it on the connection.
-/

namespace Cadeloop.Reasoning.Rfc7230

def crlf : Bytes := [13, 10]

/-! ## 1. Lines -/

/-- The bytes before the first CRLF, and those after it. -/
def readLine : Bytes → Option (Bytes × Bytes)
  | [] => none
  | b :: rest =>
    if b = 13 ∧ rest.head? = some 10 then some ([], rest.tail)
    else match readLine rest with
      | some (line, rest) => some (b :: line, rest)
      | none => none

theorem readLine_append {line : Bytes} (h : ∀ b ∈ line, b ≠ 13) (rest : Bytes) :
    readLine (line ++ crlf ++ rest) = some (line, rest) := by
  induction line with
  | nil => rfl
  | cons b line ih =>
    have hb : b ≠ 13 := h b List.mem_cons_self
    rw [List.cons_append, List.cons_append, readLine, if_neg fun hc => hb hc.1,
      ih fun c hc => h c (List.mem_cons_of_mem _ hc)]

/-! ## 2. Fields -/

abbrev Field := Bytes × Bytes

def tchar (b : UInt8) : Bool :=
  (48 ≤ b.toNat && b.toNat ≤ 57) || (65 ≤ b.toNat && b.toNat ≤ 90) ||
    (97 ≤ b.toNat && b.toNat ≤ 122) || (ascii "!#$%&'*+-.^_`|~").contains b

-- HTAB, SP, VCHAR, obs-text
def valueByte (b : UInt8) : Bool :=
  b.toNat = 9 || (32 ≤ b.toNat && b.toNat ≤ 126) || 128 ≤ b.toNat

-- optional whitespace: SP, HTAB
def ows (b : UInt8) : Bool := b = 32 || b = 9

def strip (v : Bytes) : Bytes := trim ows v

def readField (line : Bytes) : Option Field :=
  let name := line.takeWhile (· ≠ 58)
  match line.dropWhile (· ≠ 58) with
  | [] => none
  | _ :: value =>
    if name ≠ [] ∧ name.all tchar = true ∧ value.all valueByte = true then
      some (name, strip value)
    else none

/-- Field lines up to an empty line; `n` bounds their number. -/
def readFields : Nat → Bytes → Option (List Field × Bytes)
  | 0, _ => none
  | n + 1, wire =>
    match readLine wire with
    | none => none
    | some ([], rest) => some ([], rest)
    | some (b :: line, rest) =>
      match readField (b :: line), readFields n rest with
      | some f, some (fields, rest) => some (f :: fields, rest)
      | _, _ => none

def fieldLine (f : Field) : Bytes := f.1 ++ [58, 32] ++ f.2 ++ crlf

/-- A field that may be written as it is. -/
structure Legal (f : Field) : Prop where
  nonempty : f.1 ≠ []
  name : ∀ b ∈ f.1, tchar b = true
  value : ∀ b ∈ f.2, valueByte b = true

theorem Legal.of_all {f : Field} (hne : f.1 ≠ []) (hname : f.1.all tchar = true)
    (hvalue : f.2.all valueByte = true) : Legal f :=
  ⟨hne, List.all_eq_true.mp hname, List.all_eq_true.mp hvalue⟩

/-- A field as it is read: optional whitespace is no part of the value. -/
def Field.read (f : Field) : Field := (f.1, strip f.2)

theorem tchar_ne {b c : UInt8} (hb : tchar b = true) (hc : tchar c = false) : b ≠ c := by
  rintro rfl
  rw [hb] at hc
  cases hc

theorem valueByte_ne_cr {b : UInt8} (hb : valueByte b = true) : b ≠ 13 := by
  rintro rfl
  exact absurd hb (by decide)

-- a piece written is a byte at least: the fuel suffices
theorem length_le_flatMap {α : Type*} {f : α → Bytes} (hf : ∀ a, 0 < (f a).length) (l : List α) :
    l.length ≤ (l.flatMap f).length := by
  induction l with
  | nil => exact Nat.le_refl _
  | cons a l ih =>
    have ha := hf a
    rw [List.flatMap_cons, List.length_append, List.length_cons]
    omega

theorem fieldLine_pos (f : Field) : 0 < (fieldLine f).length := by
  simp [fieldLine]

theorem readField_line {f : Field} (h : Legal f) :
    readField (f.1 ++ [58, 32] ++ f.2) = some f.read := by
  have hname : ∀ b ∈ f.1, decide (b ≠ 58) = true := fun b hb =>
    decide_eq_true (tchar_ne (h.name b hb) (by decide))
  have hsplit : f.1 ++ [58, 32] ++ f.2 = f.1 ++ 58 :: 32 :: f.2 := by simp
  have htake : (f.1 ++ 58 :: 32 :: f.2).takeWhile (fun b => decide (b ≠ 58)) = f.1 := by
    rw [List.takeWhile_append_of_pos hname]
    simp
  have hdrop : (f.1 ++ 58 :: 32 :: f.2).dropWhile (fun b => decide (b ≠ 58)) = 58 :: 32 :: f.2 := by
    rw [List.dropWhile_append_of_pos hname]
    simp
  have hvalue : (32 :: f.2).all valueByte = true := by
    rw [List.all_cons, show valueByte 32 = true by decide, Bool.true_and]
    exact List.all_eq_true.mpr h.value
  rw [readField, hsplit]
  rw [hdrop, htake]
  dsimp only
  rw [if_pos ⟨h.nonempty, List.all_eq_true.mpr h.name, hvalue⟩, strip,
    trim_cons (show ows 32 = true by decide)]
  rfl

theorem fieldLine_no_cr {f : Field} (h : Legal f) : ∀ b ∈ f.1 ++ [58, 32] ++ f.2, b ≠ 13 := by
  intro b hb
  rcases List.mem_append.mp hb with hb | hb
  · rcases List.mem_append.mp hb with hb | hb
    · exact tchar_ne (h.name b hb) (by decide)
    · simp only [List.mem_cons, List.not_mem_nil, or_false] at hb
      rcases hb with rfl | rfl <;> decide
  · exact valueByte_ne_cr (h.value b hb)

theorem readFields_lines {fields : List Field} (h : ∀ f ∈ fields, Legal f) {n : Nat}
    (hn : fields.length < n) (rest : Bytes) :
    readFields n (fields.flatMap fieldLine ++ crlf ++ rest) =
      some (fields.map Field.read, rest) := by
  induction fields generalizing n with
  | nil =>
    obtain ⟨n, rfl⟩ := Nat.exists_eq_succ_of_ne_zero (Nat.ne_of_gt hn)
    rw [List.flatMap_nil, readFields, readLine_append (by simp)]
    rfl
  | cons f fields ih =>
    obtain ⟨n, rfl⟩ := Nat.exists_eq_succ_of_ne_zero (Nat.ne_of_gt (Nat.zero_lt_of_lt hn))
    have hf : Legal f := h f List.mem_cons_self
    have hline : (f :: fields).flatMap fieldLine ++ crlf ++ rest =
        (f.1 ++ [58, 32] ++ f.2) ++ crlf ++ (fields.flatMap fieldLine ++ crlf ++ rest) := by
      simp [fieldLine, List.append_assoc]
    rw [hline, readFields, readLine_append (fieldLine_no_cr hf)]
    have hread := readField_line hf
    have hrest := ih (fun g hg => h g (List.mem_cons_of_mem _ hg)) (Nat.lt_of_succ_lt_succ hn)
    cases hfull : f.1 ++ [58, 32] ++ f.2 with
    | nil => simp at hfull
    | cons b line =>
      rw [hfull] at hread
      dsimp only
      rw [hread, hrest]
      rfl

/-! ## 3. Chunks -/

-- a chunk extension is skipped
def readSize (line : Bytes) : Option Nat := readNumeral 16 (line.takeWhile (· ≠ 59))

/-- Chunks up to the last one, and the trailer section. -/
def readChunks : Nat → Bytes → Option (Bytes × List Field × Bytes)
  | 0, _ => none
  | n + 1, wire =>
    match readLine wire with
    | none => none
    | some (line, rest) =>
      match readSize line with
      | none => none
      | some size =>
        if size = 0 then
          match readFields (rest.length + 1) rest with
          | some (trailers, rest) => some ([], trailers, rest)
          | none => none
        else if (rest.drop size).take 2 = crlf then
          match readChunks n (rest.drop (size + 2)) with
          | some (body, trailers, wire) => some (rest.take size ++ body, trailers, wire)
          | none => none
        else none

def chunk (data : Bytes) : Bytes := numeral 16 data.length ++ crlf ++ data ++ crlf

theorem hexDigit_ne {d : Nat} (hd : d < 16) : digitByte d ≠ 13 ∧ digitByte d ≠ 59 := by
  revert d
  decide

theorem numeral_no_cr (n : Nat) : ∀ b ∈ numeral 16 n, b ≠ 13 := by
  intro b hb
  obtain ⟨d, hd, rfl⟩ := mem_numeral (by decide) hb
  exact (hexDigit_ne hd).1

theorem readSize_numeral (n : Nat) : readSize (numeral 16 n) = some n := by
  have hall : (numeral 16 n).takeWhile (fun b => decide (b ≠ 59)) = numeral 16 n := by
    rw [List.takeWhile_eq_self_iff]
    intro b hb
    obtain ⟨d, hd, rfl⟩ := mem_numeral (by decide) hb
    exact decide_eq_true (hexDigit_ne hd).2
  rw [readSize, hall, readNumeral_numeral (by decide) (by decide)]

/-- The end of a chunked body: the last chunk and the trailer section. -/
theorem readChunks_last {fields : List Field} (h : ∀ f ∈ fields, Legal f) (n : Nat) (rest : Bytes) :
    readChunks (n + 1) (ascii "0\r\n" ++ fields.flatMap fieldLine ++ crlf ++ rest) =
      some ([], fields.map Field.read, rest) := by
  have hline : ascii "0\r\n" ++ fields.flatMap fieldLine ++ crlf ++ rest =
      ascii "0" ++ crlf ++ (fields.flatMap fieldLine ++ crlf ++ rest) := by
    rw [show ascii "0\r\n" = ascii "0" ++ crlf by decide]
    simp only [List.append_assoc]
  have hlen : fields.length < (fields.flatMap fieldLine ++ crlf ++ rest).length + 1 := by
    have hle := length_le_flatMap fieldLine_pos fields
    rw [List.append_assoc, List.length_append]
    omega
  rw [hline, readChunks, readLine_append (List.forall_mem_ne'.mpr (by decide))]
  dsimp only
  rw [show readSize (ascii "0") = some 0 by decide]
  dsimp only
  rw [if_pos rfl, readFields_lines h hlen]

theorem readChunks_chunk {data : Bytes} (hdata : data ≠ []) (n : Nat) (rest : Bytes) :
    readChunks (n + 1) (chunk data ++ rest) =
      (readChunks n rest).map fun r => (data ++ r.1, r.2) := by
  have hsize : data.length ≠ 0 := fun h => hdata (List.eq_nil_of_length_eq_zero h)
  have hline : chunk data ++ rest = numeral 16 data.length ++ crlf ++ (data ++ (crlf ++ rest)) := by
    simp only [chunk, List.append_assoc]
  have hcrlf : ((data ++ (crlf ++ rest)).drop data.length).take 2 = crlf := by
    rw [List.drop_left]
    rfl
  have hdrop : (data ++ (crlf ++ rest)).drop (data.length + 2) = rest := by
    rw [← List.drop_drop, List.drop_left]
    rfl
  have htake : (data ++ (crlf ++ rest)).take data.length = data := List.take_left
  rw [hline, readChunks, readLine_append (numeral_no_cr _)]
  dsimp only
  rw [readSize_numeral]
  dsimp only
  rw [if_neg hsize, if_pos hcrlf, hdrop, htake]
  cases readChunks n rest <;> rfl

theorem readChunks_chunks {chunks : List Bytes} (hchunks : ∀ c ∈ chunks, c ≠ [])
    {fields : List Field} (h : ∀ f ∈ fields, Legal f) {n : Nat} (hn : chunks.length < n)
    (rest : Bytes) :
    readChunks n (chunks.flatMap chunk ++
        (ascii "0\r\n" ++ fields.flatMap fieldLine ++ crlf ++ rest)) =
      some (chunks.flatten, fields.map Field.read, rest) := by
  induction chunks generalizing n with
  | nil =>
    obtain ⟨n, rfl⟩ := Nat.exists_eq_succ_of_ne_zero (Nat.ne_of_gt hn)
    exact readChunks_last h n rest
  | cons c chunks ih =>
    obtain ⟨n, rfl⟩ := Nat.exists_eq_succ_of_ne_zero (Nat.ne_of_gt (Nat.zero_lt_of_lt hn))
    rw [List.flatMap_cons, List.append_assoc, readChunks_chunk (hchunks c List.mem_cons_self),
      ih (fun d hd => hchunks d (List.mem_cons_of_mem _ hd)) (Nat.lt_of_succ_lt_succ hn)]
    rfl

/-! ## 4. Responses -/

/-- How the end of a body is found. -/
inductive Framing where
  | empty
  | chunked
  | length (n : Nat)
  | close
  deriving DecidableEq

def values (name : Bytes) (fields : List Field) : List Bytes :=
  (fields.filter fun f => lower f.1 = name).map fun f => f.2

def lastCoding (v : Bytes) : Bytes := lower (strip (v.rtakeWhile (· ≠ 44)))

/-- The number that all of the values are. -/
def agreed : List Bytes → Option Nat
  | [] => none
  | v :: vs =>
    match readNumeral 10 v with
    | some n => if vs.all (fun w => readNumeral 10 w = some n) then some n else none
    | none => none

/-- Section 3.3.3, for the answer to a request that is or is not a HEAD. -/
def framing (headRequest : Bool) (status : Nat) (fields : List Field) : Option Framing :=
  if headRequest = true ∨ (100 ≤ status ∧ status < 200) ∨ status = 204 ∨ status = 304 then
    some .empty
  else if values (ascii "transfer-encoding") fields ≠ [] then
    if lastCoding ((values (ascii "transfer-encoding") fields).getLastD []) = ascii "chunked" then
      some .chunked
    else some .close
  else if values (ascii "content-length") fields ≠ [] then
    (agreed (values (ascii "content-length") fields)).map .length
  else some .close

def readBody (f : Framing) (wire : Bytes) : Option (Bytes × List Field × Bytes) :=
  match f with
  | .empty => some ([], [], wire)
  | .chunked => readChunks (wire.length + 1) wire
  | .length n => if n ≤ wire.length then some (wire.take n, [], wire.drop n) else none
  | .close => some (wire, [], [])

def readStatusLine (line : Bytes) : Option Nat :=
  if line.take 7 = ascii "HTTP/1." then
    match line.drop 7 with
    | minor :: 32 :: a :: b :: c :: 32 :: _ =>
      if (readNumeral 10 [minor]).isSome then readNumeral 10 [a, b, c] else none
    | _ => none
  else none

structure Response where
  status : Nat
  fields : List Field
  framing : Framing
  body : Bytes
  trailers : List Field
  deriving DecidableEq

/-- One response off the connection, and what follows it. -/
def readResponse (headRequest : Bool) (wire : Bytes) : Option (Response × Bytes) :=
  match readLine wire with
  | none => none
  | some (line, rest) =>
    match readStatusLine line, readFields (rest.length + 1) rest with
    | some status, some (fields, rest) =>
      match framing headRequest status fields with
      | none => none
      | some framing =>
        match readBody framing rest with
        | none => none
        | some (body, trailers, rest) => some ({ status, fields, framing, body, trailers }, rest)
    | _, _ => none

theorem values_append (name : Bytes) (fields more : List Field) :
    values name (fields ++ more) = values name fields ++ values name more := by
  rw [values, List.filter_append, List.map_append]
  rfl

theorem values_read (name : Bytes) (fields : List Field) :
    values name (fields.map Field.read) = (values name fields).map strip := by
  rw [values, values, List.filter_map, List.map_map, List.map_map]
  rfl

theorem agreed_of_all {vs : List Bytes} {n : Nat} (hne : vs ≠ [])
    (h : ∀ v ∈ vs, readNumeral 10 v = some n) : agreed vs = some n := by
  cases vs with
  | nil => exact absurd rfl hne
  | cons v vs =>
    have hall : vs.all (fun w => readNumeral 10 w = some n) = true :=
      List.all_eq_true.mpr fun w hw => decide_eq_true (h w (List.mem_cons_of_mem _ hw))
    rw [agreed, h v List.mem_cons_self]
    dsimp only
    rw [if_pos hall]

/-- A head that was written line by line is read back; the fields decide how the body is read. -/
theorem readResponse_written {line : Bytes} (hcr : ∀ b ∈ line, b ≠ 13) {status : Nat}
    (hline : readStatusLine line = some status) {fields : List Field}
    (h : ∀ f ∈ fields, Legal f) {headRequest : Bool} {f : Framing}
    (hf : framing headRequest status (fields.map Field.read) = some f) {rest body next : Bytes}
    {trailers : List Field} (hbody : readBody f rest = some (body, trailers, next)) :
    readResponse headRequest
        (line ++ crlf ++ (fields.flatMap fieldLine ++ crlf ++ rest)) =
      some (⟨status, fields.map Field.read, f, body, trailers⟩, next) := by
  have hlen : fields.length < (fields.flatMap fieldLine ++ crlf ++ rest).length + 1 := by
    have hle := length_le_flatMap fieldLine_pos fields
    rw [List.append_assoc, List.length_append]
    omega
  rw [readResponse, readLine_append hcr]
  dsimp only
  rw [hline, readFields_lines h hlen]
  dsimp only
  rw [hf]
  dsimp only
  rw [hbody]

end Cadeloop.Reasoning.Rfc7230
