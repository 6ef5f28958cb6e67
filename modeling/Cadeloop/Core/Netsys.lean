import Cadeloop.Reasoning.Bytes

/-!
# Socket addresses as bytes (`crates/core/src/netsys.rs`)

What goes to `bind` and `connect`, and what comes back from `getsockname` and `getpeername`.  The family
and the scope are in the machine's byte order, the port and the flow label in the network's.
-/

namespace Cadeloop.Core.Netsys

open Cadeloop.Reasoning

/-! ## 1. Addresses -/

structure Platform where
  littleEndian : Bool
  windows : Bool

/-- `to_ne_bytes`, of `k` bytes. -/
def neBytes (p : Platform) (k n : Nat) : Bytes :=
  if p.littleEndian then (beBytes k n).reverse else beBytes k n

/-- `from_ne_bytes`. -/
def neNat (p : Platform) (bs : Bytes) : Nat := if p.littleEndian then beNat bs.reverse else beNat bs

def afUnix : Nat := 1

def afInet : Nat := 2

def afInet6 (p : Platform) : Nat := if p.windows then 23 else 10

structure SocketAddrV4 where
  ip : Bytes
  port : Nat
  ip_length : ip.length = 4
  port_lt : port < 2 ^ 16

structure SocketAddrV6 where
  ip : Bytes
  port : Nat
  -- as in Python's 4-tuple
  flowinfo : Nat
  scopeId : Nat
  ip_length : ip.length = 16
  port_lt : port < 2 ^ 16
  flowinfo_lt : flowinfo < 2 ^ 32
  scopeId_lt : scopeId < 2 ^ 32

inductive SocketAddr where
  | v4 (addr : SocketAddrV4)
  | v6 (addr : SocketAddrV6)

structure SockAddrBuf where
  buf : Bytes
  len : Nat
  family : Nat

/-- `buf: [0u8; 128]`, with its first bytes written. -/
def zeroed (written : Bytes) : Bytes := written ++ List.replicate (128 - written.length) 0

/-- The fields, at their offsets from 0 on. -/
def fields (p : Platform) : SocketAddr → Bytes
  | .v4 v4 => neBytes p 2 afInet ++ (beBytes 2 v4.port ++ v4.ip)
  | .v6 v6 => neBytes p 2 (afInet6 p) ++ (beBytes 2 v6.port ++ (beBytes 4 v6.flowinfo ++ (v6.ip ++
      neBytes p 4 v6.scopeId)))

def buildSockaddr (p : Platform) (addr : SocketAddr) : SockAddrBuf :=
  match addr with
  | .v4 _ => { buf := zeroed (fields p addr), len := 16, family := afInet }
  | .v6 _ => { buf := zeroed (fields p addr), len := 28, family := afInet6 p }

theorem beNat_slice_lt (b : Bytes) (off k : Nat) : beNat (slice b off k) < 256 ^ k := by
  refine Nat.lt_of_lt_of_le (beNat_lt _) (Nat.pow_le_pow_right (by decide) ?_)
  rw [slice, List.length_take]
  exact Nat.min_le_left k _

theorem neNat_slice_lt (p : Platform) (b : Bytes) (off k : Nat) : neNat p (slice b off k) < 256 ^ k := by
  unfold neNat
  split
  · refine Nat.lt_of_lt_of_le (beNat_lt _) (Nat.pow_le_pow_right (by decide) ?_)
    rw [List.length_reverse, slice, List.length_take]
    exact Nat.min_le_left k _
  · exact beNat_slice_lt b off k

def parseSockaddr (p : Platform) (buf : Bytes) : Option SocketAddr :=
  if h8 : buf.length < 8 then none
  else if neNat p (slice buf 0 2) = afInet then
    some (.v4 ⟨slice buf 4 4, beNat (slice buf 2 2), slice_length (by omega), beNat_slice_lt buf 2 2⟩)
  else if h28 : neNat p (slice buf 0 2) = afInet6 p ∧ 28 ≤ buf.length then
    some (.v6 ⟨slice buf 8 16, beNat (slice buf 2 2), beNat (slice buf 4 4), neNat p (slice buf 24 4),
      slice_length (by omega), beNat_slice_lt buf 2 2, beNat_slice_lt buf 4 4, neNat_slice_lt p buf 24 4⟩)
  else none

inductive Addr where
  | inet (addr : SocketAddr)
  -- a path, or a leading NUL and an abstract name, or nothing
  | unix (path : Bytes)

/-- `rposition` of a byte other than NUL, and what is up to it. -/
def trimNuls (path : Bytes) : Bytes := (path.reverse.dropWhile (· == 0)).reverse

def parseUnixSockaddr (p : Platform) (buf : Bytes) : Option Bytes :=
  if buf.length < 2 ∨ neNat p (slice buf 0 2) ≠ afUnix then none
  else
    let path := buf.drop 2
    if path.head? = some 0 then some (trimNuls path)
    else some (path.takeWhile (· != 0))

def parseAnySockaddr (p : Platform) (buf : Bytes) : Option Addr :=
  match parseSockaddr p buf with
  | some a => some (.inet a)
  | none => (parseUnixSockaddr p buf).map .unix

/-! ## 2. Round trips -/

@[simp] theorem neBytes_length (p : Platform) (k n : Nat) : (neBytes p k n).length = k := by
  unfold neBytes
  split <;> simp

theorem neNat_neBytes (p : Platform) {k n : Nat} (h : n < 256 ^ k) : neNat p (neBytes p k n) = n := by
  unfold neNat neBytes
  split
  · rw [List.reverse_reverse, beNat_beBytes h]
  · exact beNat_beBytes h

theorem neBytes_neNat (p : Platform) (bs : Bytes) : neBytes p bs.length (neNat p bs) = bs := by
  unfold neBytes neNat
  split
  · rw [← List.length_reverse, beBytes_beNat, List.reverse_reverse]
  · exact beBytes_beNat bs

theorem afInet6_lt (p : Platform) : afInet6 p < 256 ^ 2 := by
  unfold afInet6
  split <;> decide

theorem afInet6_ne (p : Platform) : afInet6 p ≠ afInet ∧ afInet6 p ≠ afUnix := by
  unfold afInet6
  split <;> decide

/-- The fields are read back, whatever is behind them. -/
theorem parse_fields (p : Platform) (addr : SocketAddr) (rest : Bytes) :
    parseSockaddr p (fields p addr ++ rest) = some addr := by
  cases addr with
  | v4 v4 =>
    obtain ⟨ip, port, hip, hport⟩ := v4
    simp only [fields, List.append_assoc]
    have hnative := neBytes_length p 2 afInet
    have hfamily : slice (neBytes p 2 afInet ++ (beBytes 2 port ++ (ip ++ rest))) 0 2 =
        neBytes p 2 afInet := slice_zero_append _ hnative
    have hport' : slice (neBytes p 2 afInet ++ (beBytes 2 port ++ (ip ++ rest))) 2 2 = beBytes 2 port :=
      (slice_append_right _ hnative 0 2).trans (slice_zero_append _ (beBytes_length 2 port))
    have hip' : slice (neBytes p 2 afInet ++ (beBytes 2 port ++ (ip ++ rest))) 4 4 = ip :=
      (slice_append_right _ hnative 2 4).trans
        ((slice_append_right _ (beBytes_length 2 port) 0 4).trans (slice_zero_append _ hip))
    unfold parseSockaddr
    rw [dif_neg (by simp [hip]; omega)]
    simp only [hfamily, hport', hip', neNat_neBytes p (show afInet < 256 ^ 2 by decide), if_true,
      beNat_beBytes (show port < 256 ^ 2 from hport)]
  | v6 v6 =>
    obtain ⟨ip, port, flowinfo, scopeId, hip, hport, hflow, hscope⟩ := v6
    simp only [fields, List.append_assoc]
    have hnative := neBytes_length p 2 (afInet6 p)
    have hbytes := beBytes_length 2 port
    have hflow' := beBytes_length 4 flowinfo
    set buf := neBytes p 2 (afInet6 p) ++ (beBytes 2 port ++ (beBytes 4 flowinfo ++ (ip ++
      (neBytes p 4 scopeId ++ rest)))) with hbuf
    have hlength : 28 ≤ buf.length := by
      simp [hbuf, hip]
      omega
    have hfamily : slice buf 0 2 = neBytes p 2 (afInet6 p) := slice_zero_append _ hnative
    have hport' : slice buf 2 2 = beBytes 2 port :=
      (slice_append_right _ hnative 0 2).trans (slice_zero_append _ hbytes)
    have hflowinfo : slice buf 4 4 = beBytes 4 flowinfo :=
      (slice_append_right _ hnative 2 4).trans
        ((slice_append_right _ hbytes 0 4).trans (slice_zero_append _ hflow'))
    have hip' : slice buf 8 16 = ip :=
      (slice_append_right _ hnative 6 16).trans ((slice_append_right _ hbytes 4 16).trans
        ((slice_append_right _ hflow' 0 16).trans (slice_zero_append _ hip)))
    have hscope' : slice buf 24 4 = neBytes p 4 scopeId :=
      (slice_append_right _ hnative 22 4).trans ((slice_append_right _ hbytes 20 4).trans
        ((slice_append_right _ hflow' 16 4).trans ((slice_append_right _ hip 0 4).trans
          (slice_zero_append _ (neBytes_length p 4 scopeId)))))
    unfold parseSockaddr
    rw [dif_neg (by omega)]
    simp only [hfamily, hport', hflowinfo, hip', hscope', neNat_neBytes p (afInet6_lt p),
      (afInet6_ne p).1, hlength, and_self, if_false, dif_pos,
      beNat_beBytes (show port < 256 ^ 2 from hport), beNat_beBytes (show flowinfo < 256 ^ 4 from hflow),
      neNat_neBytes p (show scopeId < 256 ^ 4 from hscope)]

theorem fields_length (p : Platform) (addr : SocketAddr) :
    (fields p addr).length ≤ (buildSockaddr p addr).len ∧ (fields p addr).length ≤ 128 := by
  cases addr with
  | v4 v4 => simp [fields, buildSockaddr, v4.ip_length]
  | v6 v6 => simp [fields, buildSockaddr, v6.ip_length]

/-- What is built is parsed to the address it was built from. -/
theorem parse_buildSockaddr (p : Platform) (addr : SocketAddr) {n : Nat}
    (hn : (buildSockaddr p addr).len ≤ n) :
    parseSockaddr p ((buildSockaddr p addr).buf.take n) = some addr := by
  have hbuf : (buildSockaddr p addr).buf =
      fields p addr ++ List.replicate (128 - (fields p addr).length) 0 := by
    cases addr <;> rfl
  have hlength := (fields_length p addr).1
  rw [hbuf, List.take_append, List.take_of_length_le (by omega)]
  exact parse_fields p addr _

/-- Windows side by side. -/
theorem slice_join (b : Bytes) (off m n : Nat) :
    slice b off m ++ slice b (off + m) n = slice b off (m + n) := by
  rw [slice, slice, slice, ← List.drop_drop, ← List.take_add]

theorem beBytes_slice {b : Bytes} {off k : Nat} (hlength : off + k ≤ b.length) :
    beBytes k (beNat (slice b off k)) = slice b off k := by
  have h := beBytes_beNat (slice b off k)
  rw [slice_length hlength] at h
  exact h

theorem neBytes_slice (p : Platform) {b : Bytes} {off k : Nat} (hlength : off + k ≤ b.length) :
    neBytes p k (neNat p (slice b off k)) = slice b off k := by
  have h := neBytes_neNat p (slice b off k)
  rw [slice_length hlength] at h
  exact h

/-- The bytes that are parsed are those that would be built. -/
theorem fields_of_parse (p : Platform) {buf : Bytes} {addr : SocketAddr}
    (hparse : parseSockaddr p buf = some addr) : fields p addr = buf.take (fields p addr).length := by
  unfold parseSockaddr at hparse
  split at hparse
  · cases hparse
  rename_i h8
  have h8 : 8 ≤ buf.length := Nat.le_of_not_lt h8
  split at hparse
  · rename_i hfamily
    injection hparse with hparse
    have hall : fields p addr = slice buf 0 8 := by
      rw [← hparse, fields, ← hfamily, neBytes_slice p (by omega), beBytes_slice (by omega),
        slice_join buf 2 2 4, slice_join buf 0 2 6]
    rw [hall, slice_length (by omega)]
    rfl
  · split at hparse
    · rename_i h28
      obtain ⟨hfamily, hlength⟩ := h28
      injection hparse with hparse
      have hall : fields p addr = slice buf 0 28 := by
        have hnative : neBytes p 2 (afInet6 p) = slice buf 0 2 := by
          rw [← hfamily, neBytes_slice p (by omega)]
        rw [← hparse, fields, hnative]
        dsimp only
        rw [beBytes_slice (by omega), beBytes_slice (by omega), neBytes_slice p (by omega),
          slice_join buf 8 16 4, slice_join buf 4 4 20, slice_join buf 2 2 24, slice_join buf 0 2 26]
      rw [hall, slice_length (by omega)]
      rfl
    · cases hparse

/-! ## 3. Unix sockets -/

/-- A name that can be told from the NULs behind it: a path, an abstract name, or none. -/
def Named (path : Bytes) : Prop :=
  0 ∉ path ∨ path.head? = some 0 ∧ path.getLast? ≠ some 0

theorem trimNuls_pad {path : Bytes} (hlast : path.getLast? ≠ some 0) (k : Nat) :
    trimNuls (path ++ List.replicate k 0) = path := by
  have hpad : ∀ bs : Bytes, (List.replicate k 0 ++ bs).dropWhile (· == 0) = bs.dropWhile (· == 0) := by
    intro bs
    induction k with
    | zero => rfl
    | succ k ih => exact ih
  unfold trimNuls
  rw [List.reverse_append, List.reverse_replicate, hpad]
  have hstart : path.reverse.dropWhile (· == 0) = path.reverse := by
    cases hrev : path.reverse with
    | nil => rfl
    | cons b bs =>
      have hb : b ≠ 0 := by
        intro hb
        refine hlast ?_
        rw [List.getLast?_eq_head?_reverse, hrev, hb]
        rfl
      rw [List.dropWhile_cons_of_neg (by simpa using hb)]
  rw [hstart, List.reverse_reverse]

theorem takeWhile_pad {path : Bytes} (hpath : 0 ∉ path) (k : Nat) :
    (path ++ List.replicate k 0).takeWhile (· != 0) = path := by
  induction path with
  | nil => cases k <;> rfl
  | cons b bs ih =>
    have hb : b ≠ 0 := fun hb => hpath (hb ▸ List.mem_cons_self)
    rw [List.cons_append, List.takeWhile_cons_of_pos (by simpa using hb),
      ih fun hin => hpath (List.mem_cons_of_mem b hin)]

/-- What a kernel reports for a name, the rest of `sun_path` zeroed, is parsed to the name. -/
theorem parse_unix (p : Platform) {path : Bytes} (hpath : Named path) (k : Nat) :
    parseUnixSockaddr p (neBytes p 2 afUnix ++ (path ++ List.replicate k 0)) = some path := by
  have hnative := neBytes_length p 2 afUnix
  have hfamily : slice (neBytes p 2 afUnix ++ (path ++ List.replicate k 0)) 0 2 = neBytes p 2 afUnix :=
    slice_zero_append _ hnative
  have hrest : (neBytes p 2 afUnix ++ (path ++ List.replicate k 0)).drop 2 =
      path ++ List.replicate k 0 := by
    rw [List.drop_append, hnative, List.drop_of_length_le (Nat.le_of_eq hnative)]
    rfl
  unfold parseUnixSockaddr
  rw [if_neg (by
    rw [hfamily, neNat_neBytes p (show afUnix < 256 ^ 2 by decide)]
    simp only [List.length_append, hnative, ne_eq, not_true, or_false]
    omega)]
  dsimp only
  rw [hrest]
  rcases hpath with hfree | ⟨hhead, hlast⟩
  · cases path with
    | nil =>
      cases k with
      | zero => rfl
      | succ k => exact congrArg some (trimNuls_pad (by simp) (k + 1))
    | cons b bs =>
      have hb : b ≠ 0 := fun hb => hfree (hb ▸ List.mem_cons_self)
      rw [if_neg (by simpa using hb), takeWhile_pad hfree]
  · have hfirst : (path ++ List.replicate k 0).head? = some 0 := by
      cases path with
      | nil => cases hhead
      | cons b bs => exact hhead
    rw [if_pos hfirst, trimNuls_pad hlast]

theorem trimNuls_named {path : Bytes} (hhead : path.head? = some 0) : Named (trimNuls path) := by
  cases hrev : path.reverse.dropWhile (· == 0) with
  | nil =>
    refine .inl ?_
    rw [trimNuls, hrev]
    exact List.not_mem_nil
  | cons b bs =>
    have hb : b ≠ 0 := by
      have hfirst := List.head?_dropWhile_not (· == 0) path.reverse
      rw [hrev] at hfirst
      simpa using hfirst
    refine .inr ⟨?_, ?_⟩
    · -- what is left is a prefix, and not empty
      have hsuffix : (b :: bs) <:+ path.reverse := hrev ▸ List.dropWhile_suffix _
      obtain ⟨nuls, hnuls⟩ := hsuffix
      have hpath : path = (b :: bs).reverse ++ nuls.reverse := by
        rw [← List.reverse_append, hnuls, List.reverse_reverse]
      rw [trimNuls, hrev]
      rw [hpath] at hhead
      cases hfront : (b :: bs).reverse with
      | nil => simp at hfront
      | cons c cs =>
        rw [hfront] at hhead
        exact hhead
    · rw [trimNuls, hrev, List.getLast?_eq_head?_reverse, List.reverse_reverse]
      exact fun heq => hb (Option.some.inj heq)

/-- What is parsed is a name. -/
theorem named_of_parse (p : Platform) {buf path : Bytes} (hparse : parseUnixSockaddr p buf = some path) :
    Named path := by
  unfold parseUnixSockaddr at hparse
  split at hparse
  · cases hparse
  dsimp only at hparse
  split at hparse
  · rename_i hhead
    injection hparse with hparse
    exact hparse ▸ trimNuls_named hhead
  · injection hparse with hparse
    refine .inl fun hin => ?_
    rw [← hparse] at hin
    have hzero := List.mem_takeWhile_imp hin
    simp at hzero

/-! ## 4. Any address -/

theorem parseSockaddr_unix (p : Platform) (rest : Bytes) :
    parseSockaddr p (neBytes p 2 afUnix ++ rest) = none := by
  have hfamily : neNat p (slice (neBytes p 2 afUnix ++ rest) 0 2) = afUnix := by
    rw [slice_zero_append _ (neBytes_length p 2 afUnix), neNat_neBytes p (by decide)]
  have hne := (afInet6_ne p).2
  unfold parseSockaddr
  split
  · rfl
  · rw [if_neg (by rw [hfamily]; decide), dif_neg fun hh => hne (hh.1.symm.trans hfamily)]

/-- Every address comes back as it went in, and what comes back is what the bytes say. -/
theorem sockaddr_round_trip (p : Platform) :
    (∀ addr n, (buildSockaddr p addr).len ≤ n →
        parseAnySockaddr p ((buildSockaddr p addr).buf.take n) = some (.inet addr)) ∧
      (∀ path k, Named path →
        parseAnySockaddr p (neBytes p 2 afUnix ++ (path ++ List.replicate k 0)) = some (.unix path)) ∧
      (∀ buf addr, parseAnySockaddr p buf = some (.inet addr) →
        fields p addr = buf.take (fields p addr).length) ∧
      ∀ buf path, parseAnySockaddr p buf = some (.unix path) → Named path := by
  refine ⟨fun addr n hn => ?_, fun path k hpath => ?_, fun buf addr hparse => ?_,
    fun buf path hparse => ?_⟩
  · rw [parseAnySockaddr, parse_buildSockaddr p addr hn]
  · rw [parseAnySockaddr, parseSockaddr_unix, parse_unix p hpath]
    rfl
  · unfold parseAnySockaddr at hparse
    split at hparse
    · rename_i a ha
      injection hparse with hparse
      injection hparse with hparse
      exact fields_of_parse p (hparse ▸ ha)
    · obtain ⟨path, -, hpath⟩ := Option.map_eq_some_iff.mp hparse
      cases hpath
  · unfold parseAnySockaddr at hparse
    split at hparse
    · injection hparse with hparse
      cases hparse
    · obtain ⟨path', hpath, heq⟩ := Option.map_eq_some_iff.mp hparse
      injection heq with heq
      exact heq ▸ named_of_parse p hpath

end Cadeloop.Core.Netsys
