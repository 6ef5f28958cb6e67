import Cadeloop.Pyshim.HttpSend

/-!
# Response heads

The head that `http.response.start` buffers is a status line and legal field lines, of which the
server alone decides the transfer-encoding, and the content-length fields agree with what was
declared.  So a reader's framing is what the fields added later make of it.
-/

namespace Cadeloop.Pyshim.Http

open Cadeloop.Reasoning
open Rfc7230 (Field Framing Legal crlf fieldLine framing strip values valueByte)

/-! ## 1. Fields that pass the check are legal -/

theorem legal_of_valid {name value : Bytes} (h : validateResponseHeader name value = .ok ()) :
    Legal (name, value) := by
  unfold validateResponseHeader at h
  split at h
  · cases h
  rename_i hne
  split at h
  · cases h
  rename_i hname
  split at h
  · cases h
  rename_i hvalue
  refine ⟨hne, fun b hb => ?_, fun b hb => ?_⟩
  · have hb := List.find?_eq_none.mp hname b hb
    show isTchar b = true
    simpa using hb
  · have hb := List.find?_eq_none.mp hvalue b hb
    show isFieldVchar b = true
    simpa using hb

theorem whitespace_eq_ows {b : UInt8} (hb : valueByte b = true) :
    isAsciiWhitespace b = Rfc7230.ows b := by
  have hspace : b = 32 ↔ b.toNat = 32 := UInt8.toNat_inj.symm
  have htab : b = 9 ↔ b.toNat = 9 := UInt8.toNat_inj.symm
  simp only [valueByte, Bool.or_eq_true, Bool.and_eq_true, decide_eq_true_eq] at hb
  rw [Bool.eq_iff_iff]
  simp only [isAsciiWhitespace, Rfc7230.ows, Bool.or_eq_true, decide_eq_true_eq, hspace, htab]
  omega

/-- An accepted content-length is the number its stripped value reads as. -/
theorem contentLength_ok {declared : Option Nat} {value : Bytes} {n : Nat}
    (hvalue : ∀ b ∈ value, valueByte b = true) (h : contentLength declared value = .ok n) :
    readNumeral 10 (strip value) = some n ∧ n < 2 ^ 64 ∧ ∀ prev, declared = some prev → prev = n := by
  have htrim : trim isAsciiWhitespace value = strip value :=
    trim_congr fun b hb => whitespace_eq_ows (hvalue b hb)
  unfold contentLength at h
  rw [htrim] at h
  dsimp only at h
  split at h
  · cases h
  rename_i m hparsed
  split at h
  · cases h
  rename_i hany
  injection h with h
  subst h
  split at hparsed
  · obtain ⟨hread, hlt⟩ := Option.filter_eq_some_iff.mp hparsed
    refine ⟨hread, of_decide_eq_true hlt, fun prev hprev => ?_⟩
    rw [hprev] at hany
    simpa using hany
  · cases hparsed

/-! ## 2. The scan of the headers -/

def contentLengthName : Bytes := ascii "content-length"

def transferEncodingName : Bytes := ascii "transfer-encoding"

def headBytes (minor status : Nat) (fields : List Field) : Bytes :=
  statusLine minor status ++ crlf ++ fields.flatMap fieldLine

/-- What the content-length fields of a head say is what was declared. -/
structure Declares (fields : List Field) (declared : Option Nat) : Prop where
  undeclared : declared = none → values contentLengthName fields = []
  agree : ∀ n, declared = some n → values contentLengthName fields ≠ [] ∧
    ∀ v ∈ values contentLengthName fields, readNumeral 10 (strip v) = some n

theorem values_singleton (name : Bytes) (f : Field) :
    values name [f] = if lower f.1 = name then [f.2] else [] := by
  rw [values, List.filter_singleton]
  by_cases h : lower f.1 = name
  · simp [h]
  · simp [h]

theorem values_concat_of_ne {name : Bytes} {fields : List Field} {f : Field} (h : lower f.1 ≠ name) :
    values name (fields ++ [f]) = values name fields := by
  rw [Rfc7230.values_append, values_singleton, if_neg h, List.append_nil]

theorem Declares.concat {fields : List Field} {declared : Option Nat} (h : Declares fields declared)
    {f : Field} (hf : lower f.1 ≠ contentLengthName) : Declares (fields ++ [f]) declared := by
  constructor
  · intro hd
    rw [values_concat_of_ne hf, h.undeclared hd]
  · intro n hd
    rw [values_concat_of_ne hf]
    exact h.agree n hd

theorem Declares.concat_length {fields : List Field} {declared : Option Nat}
    (h : Declares fields declared) {f : Field} (hf : lower f.1 = contentLengthName) {n : Nat}
    (hread : readNumeral 10 (strip f.2) = some n)
    (hsame : ∀ prev, declared = some prev → prev = n) : Declares (fields ++ [f]) (some n) := by
  constructor
  · intro hd
    cases hd
  · intro m hm
    injection hm with hm
    subst hm
    rw [Rfc7230.values_append, values_singleton, if_pos hf]
    refine ⟨by simp, fun v hv => ?_⟩
    rcases List.mem_append.mp hv with hold | hnew
    · cases hdecl : declared with
      | none =>
        rw [h.undeclared hdecl] at hold
        cases hold
      | some prev =>
        rw [← hsame prev hdecl]
        exact (h.agree prev hdecl).2 v hold
    · rw [List.mem_singleton.mp hnew]
      exact hread

/-- What the scan has put together so far. -/
structure Scanned (minor status : Nat) (a : HeadScan) (fields : List Field) : Prop where
  head : a.head = headBytes minor status fields
  legal : ∀ f ∈ fields, Legal f
  uncoded : values transferEncodingName fields = []
  declares : Declares fields a.declaredLength
  permitted : a.declaredLength.isSome = true → statusForbidsContentLength status = false
  fits : ∀ n, a.declaredLength = some n → n < 2 ^ 64

theorem lower_ascii_names : lower contentLengthName = contentLengthName ∧
    lower transferEncodingName = transferEncodingName := by decide

theorem eqIgnoreAsciiCase_iff {a b : Bytes} (hb : lower b = b) :
    eqIgnoreAsciiCase a b = true ↔ lower a = b := by
  rw [eqIgnoreAsciiCase, decide_eq_true_iff, hb]

theorem fieldLine_eq (f : Field) :
    fieldLine f = f.1 ++ ascii ": " ++ f.2 ++ crlf := by
  rw [fieldLine, show ascii ": " = [58, 32] by decide]

section Scan

variable {minor status : Nat} {a : HeadScan} {fields : List Field}

theorem Scanned.copy (h : Scanned minor status a fields) {f : Field} (hf : Legal f)
    (hcoding : lower f.1 ≠ transferEncodingName) {a' : HeadScan}
    (hhead : a'.head = a.head ++ f.1 ++ ascii ": " ++ f.2 ++ crlf)
    (hdeclares : Declares (fields ++ [f]) a'.declaredLength)
    (hpermitted : a'.declaredLength.isSome = true → statusForbidsContentLength status = false)
    (hfits : ∀ n, a'.declaredLength = some n → n < 2 ^ 64) :
    Scanned minor status a' (fields ++ [f]) := by
  refine ⟨?_, fun g hg => ?_, ?_, hdeclares, hpermitted, hfits⟩
  · rw [hhead, h.head, headBytes, headBytes, List.flatMap_append, List.flatMap_singleton,
      fieldLine_eq]
    simp only [List.append_assoc]
  · rcases List.mem_append.mp hg with hold | hnew
    · exact h.legal g hold
    · rw [List.mem_singleton.mp hnew]
      exact hf
  · rw [values_concat_of_ne hcoding, h.uncoded]

/-- One header scanned. -/
theorem Scanned.startHeader (h : Scanned minor status a fields) {f : Field} {a' : HeadScan}
    (hok : startHeader status a f = .ok a') : ∃ fields', Scanned minor status a' fields' := by
  unfold Http.startHeader at hok
  split at hok
  · cases hok
  rename_i hvalid
  have hlegal := legal_of_valid hvalid
  have hlength := eqIgnoreAsciiCase_iff (a := f.1) lower_ascii_names.1
  have hcoding := eqIgnoreAsciiCase_iff (a := f.1) lower_ascii_names.2
  change eqIgnoreAsciiCase f.1 (ascii "content-length") = true ↔ _ at hlength
  change eqIgnoreAsciiCase f.1 (ascii "transfer-encoding") = true ↔ _ at hcoding
  dsimp only at hok
  by_cases hl : lower f.1 = contentLengthName
  · -- a content-length: dropped, or parsed and copied
    rw [hlength.mpr hl, Bool.true_and] at hok
    have hc : lower f.1 ≠ transferEncodingName := by
      rw [hl]
      decide
    have hother : eqIgnoreAsciiCase f.1 (ascii "date") = false ∧
        eqIgnoreAsciiCase f.1 (ascii "server") = false := by
      rw [eqIgnoreAsciiCase, eqIgnoreAsciiCase, hl]
      decide
    split at hok
    · injection hok with hok
      exact ⟨fields, hok ▸ h⟩
    rename_i hpermitted
    rw [if_pos rfl] at hok
    cases hparse : contentLength a.declaredLength f.2 with
    | error e =>
      rw [hparse] at hok
      cases hok
    | ok n =>
      obtain ⟨hread, hlt, hsame⟩ := contentLength_ok hlegal.value hparse
      rw [hparse] at hok
      dsimp only [Except.map] at hok
      rw [if_neg fun h => hc (hcoding.mp h), hother.1, hother.2, Bool.or_false,
        if_neg Bool.false_ne_true] at hok
      injection hok with hok
      refine ⟨fields ++ [f], h.copy hlegal hc (by rw [← hok]) ?_ ?_ ?_⟩
      · rw [← hok]
        exact h.declares.concat_length hl hread hsame
      · exact fun _ => Bool.eq_false_iff.mpr hpermitted
      · rw [← hok]
        intro m hm
        injection hm with hm
        omega
  · have hnot : eqIgnoreAsciiCase f.1 (ascii "content-length") = false :=
      Bool.eq_false_iff.mpr fun h => hl (hlength.mp h)
    rw [hnot, Bool.false_and, if_neg Bool.false_ne_true, if_neg Bool.false_ne_true] at hok
    dsimp only at hok
    split at hok
    · injection hok with hok
      exact ⟨fields, by rw [← hok]; exact h⟩
    rename_i hc
    split at hok
    · injection hok with hok
      refine ⟨fields, ?_⟩
      rw [← hok]
      exact ⟨h.head, h.legal, h.uncoded, h.declares, h.permitted, h.fits⟩
    · injection hok with hok
      refine ⟨fields ++ [f], h.copy hlegal (fun h => hc (hcoding.mpr h)) (by rw [← hok]) ?_ ?_ ?_⟩
      · rw [← hok]
        exact h.declares.concat hl
      · rw [← hok]
        exact h.permitted
      · rw [← hok]
        exact h.fits

theorem scan_new (minor status : Nat) :
    Scanned minor status ⟨statusLine minor status ++ crlf, none, false, false⟩ [] where
  head := by rw [headBytes, List.flatMap_nil, List.append_nil]
  legal _ h := by cases h
  uncoded := rfl
  declares := ⟨fun _ => rfl, fun _ h => by cases h⟩
  permitted h := by cases h
  fits _ h := by cases h

theorem Scanned.headers {headers : List Field} (h : Scanned minor status a fields) {a' : HeadScan}
    (hok : headers.foldlM (Http.startHeader status) a = .ok a') :
    ∃ fields', Scanned minor status a' fields' := by
  induction headers generalizing a fields with
  | nil =>
    injection hok with hok
    exact ⟨fields, hok ▸ h⟩
  | cons f headers ih =>
    rw [List.foldlM_cons] at hok
    cases hf : Http.startHeader status a f with
    | error e =>
      rw [hf] at hok
      cases hok
    | ok a₁ =>
      rw [hf] at hok
      obtain ⟨fields₁, h₁⟩ := h.startHeader hf
      exact ih h₁ hok

end Scan

/-! ## 3. The lines of the server -/

theorem digit_valueByte : ∀ d < 10, valueByte (digitByte d) = true := by decide

theorem numeral_valueByte (n : Nat) : ∀ b ∈ numeral 10 n, valueByte b = true := by
  intro b hb
  obtain ⟨d, hd, rfl⟩ := mem_numeral (by decide) hb
  exact digit_valueByte d hd

theorem twoDigits_valueByte (n : Nat) : ∀ b ∈ twoDigits n, valueByte b = true := by
  unfold twoDigits
  split
  · rw [List.forall_mem_append]
    exact ⟨List.all_eq_true.mp (by decide), numeral_valueByte n⟩
  · exact numeral_valueByte n

theorem getD_valueByte {names : List String}
    (h : (names.all fun s => (ascii s).all valueByte) = true) (i : Nat) :
    ∀ b ∈ ascii (names.getD i ""), valueByte b = true := by
  rw [List.getD_eq_getElem?_getD]
  cases hi : names[i]? with
  | none =>
    intro b hb
    cases hb
  | some s => exact List.all_eq_true.mp (List.all_eq_true.mp h s (List.mem_of_getElem? hi))

theorem dateValue_valueByte (unixSecs : Nat) : ∀ b ∈ dateValue unixSecs, valueByte b = true := by
  simp only [dateValue, List.forall_mem_append]
  repeat' apply And.intro
  all_goals
    first
    | exact twoDigits_valueByte _
    | exact numeral_valueByte _
    | exact getD_valueByte (by decide) _
    | exact List.all_eq_true.mp (by decide)

theorem date_legal (unixSecs : Nat) : Legal (ascii "date", dateValue unixSecs) where
  nonempty := (by decide : ascii "date" ≠ [])
  name := List.all_eq_true.mp (by decide : (ascii "date").all Rfc7230.tchar = true)
  value := dateValue_valueByte unixSecs

theorem server_legal : Legal (ascii "server", ascii "cadeloop") :=
  .of_all (by decide) (by decide) (by decide)

theorem buildDateLine_eq (unixSecs : Nat) :
    buildDateLine unixSecs = fieldLine (ascii "date", dateValue unixSecs) := by
  rw [fieldLine_eq, buildDateLine, show ascii "date: " = ascii "date" ++ ascii ": " by decide]

theorem numeral_no_cr (n : Nat) : ∀ b ∈ numeral 10 n, b ≠ 13 := fun b hb =>
  Rfc7230.valueByte_ne_cr (numeral_valueByte n b hb)

theorem statusText_no_cr (status : Nat) : ∀ b ∈ ascii (statusText status), b ≠ 13 := by
  unfold statusText
  split <;> exact List.forall_mem_ne'.mpr (by decide)

theorem statusLine_no_cr (minor status : Nat) : ∀ b ∈ statusLine minor status, b ≠ 13 := by
  simp only [statusLine, List.forall_mem_append]
  refine ⟨⟨⟨?_, numeral_no_cr status⟩, List.forall_mem_ne'.mpr (by decide)⟩,
    statusText_no_cr status⟩
  split <;> exact List.forall_mem_ne'.mpr (by decide)

theorem readStatusLine_statusLine {minor status : Nat} (hlow : 100 ≤ status) (hhigh : status ≤ 999) :
    Rfc7230.readStatusLine (statusLine minor status) = some status := by
  obtain ⟨a, b, c, habc⟩ := numeral_three hlow hhigh
  have hread := readNumeral_numeral (by decide : 1 < 10) (by decide) status
  rw [habc] at hread
  obtain ⟨digit, hversion, hdigit⟩ : ∃ digit : UInt8,
      ascii (if minor = 0 then "HTTP/1.0 " else "HTTP/1.1 ") = ascii "HTTP/1." ++ [digit, 32] ∧
        (readNumeral 10 [digit]).isSome = true := by
    split
    · exact ⟨48, by decide, by decide⟩
    · exact ⟨49, by decide, by decide⟩
  have hline : statusLine minor status =
      ascii "HTTP/1." ++ digit :: 32 :: a :: b :: c :: 32 :: ascii (statusText status) := by
    rw [statusLine, hversion, habc, show ascii " " = [32] by decide]
    simp
  have hlen : (ascii "HTTP/1.").length = 7 := by decide
  rw [Rfc7230.readStatusLine, hline, ← hlen, List.take_left, List.drop_left, if_pos rfl]
  exact (if_pos hdigit).trans hread

/-! ## 4. `http.response.start` accepted -/

/-- A head put together for a status. -/
structure Head (c : HttpConn) (status : Nat) (fields : List Field) : Prop where
  low : 200 ≤ status
  high : status ≤ 999
  legal : ∀ f ∈ fields, Legal f
  uncoded : values transferEncodingName fields = []
  declares : Declares fields c.respDeclaredLength
  permitted : c.respDeclaredLength.isSome = true → statusForbidsContentLength status = false
  fits : ∀ n, c.respDeclaredLength = some n → n < 2 ^ 64
  started : c.respStartedWithLength = c.respDeclaredLength.isSome
  bodyless : c.respBodyless = statusForbidsBody status
  empty : c.respEmpty = statusRequiresEmptyBody status

theorem sendStart_ok {unixSecs : Nat} {c : HttpConn} {status : Option UInt16} {headers : List Field}
    {trailers : Bool} (hok : (sendStart unixSecs c status headers trailers).result = .ok ()) :
    ∃ st fields, status = some st ∧ c.resp = .idle ∧
      Head (sendStart unixSecs c status headers trailers).conn st.toNat fields ∧
      (sendStart unixSecs c status headers trailers).conn.respHead =
        headBytes c.activeMinor st.toNat fields ∧
      (sendStart unixSecs c status headers trailers).conn.resp = .started ∧
      (sendStart unixSecs c status headers trailers).conn.activeHead = c.activeHead ∧
      (sendStart unixSecs c status headers trailers).conn.activeMinor = c.activeMinor ∧
      (sendStart unixSecs c status headers trailers).conn.trailersStarted = c.trailersStarted ∧
      (sendStart unixSecs c status headers trailers).conn.respBodySent = 0 ∧
      (sendStart unixSecs c status headers trailers).enqueued = [] := by
  unfold sendStart at hok ⊢
  cases status with
  | none => cases hok
  | some st =>
    dsimp only at hok ⊢
    by_cases hrange : 100 ≤ st.toNat ∧ st.toNat ≤ 999
    swap
    · rw [if_pos hrange] at hok
      cases hok
    rw [if_neg (not_not_intro hrange)] at hok ⊢
    by_cases hinterim : st.toNat < 200
    · rw [if_pos hinterim] at hok
      cases hok
    rw [if_neg hinterim] at hok ⊢
    cases hscan : headers.foldlM (startHeader st.toNat)
        ⟨statusLine c.activeMinor st.toNat ++ crlf, none, false, false⟩ with
    | error e =>
      rw [hscan] at hok
      cases hok
    | ok a =>
      rw [hscan] at hok
      dsimp only at hok ⊢
      by_cases hidle : c.resp = .idle
      swap
      · rw [if_pos hidle] at hok
        cases hok
      rw [if_neg (not_not_intro hidle)]
      obtain ⟨fields, h⟩ := (scan_new c.activeMinor st.toNat).headers hscan
      refine ⟨st, fields ++ [(ascii "server", ascii "cadeloop")] ++
        [(ascii "date", dateValue unixSecs)], rfl, hidle, ?_, ?_, rfl, rfl, rfl, rfl, rfl, rfl⟩
      · refine ⟨by omega, hrange.2, fun f hf => ?_, ?_, ?_, h.permitted, h.fits, rfl, rfl, rfl⟩
        · rcases List.mem_append.mp hf with hf | hf
          · rcases List.mem_append.mp hf with hf | hf
            · exact h.legal f hf
            · rw [List.mem_singleton.mp hf]
              exact server_legal
          · rw [List.mem_singleton.mp hf]
            exact date_legal unixSecs
        · rw [values_concat_of_ne (by dsimp only; decide), values_concat_of_ne (by decide), h.uncoded]
        · exact (h.declares.concat (by decide)).concat (by dsimp only; decide)
      · dsimp only
        rw [h.head, headBytes, headBytes, buildDateLine_eq, List.flatMap_append, List.flatMap_append,
          List.flatMap_singleton, List.flatMap_singleton,
          show ascii "server: cadeloop\r\n" = fieldLine (ascii "server", ascii "cadeloop") by decide]
        simp only [List.append_assoc]

end Cadeloop.Pyshim.Http
