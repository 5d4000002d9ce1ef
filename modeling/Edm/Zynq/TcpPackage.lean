import Edm.Utils.Crc

/-!
# Packages for the servo board

`ZynqConnectController::MakeTcpPackage` lays a frame out in a buffer of 256 bytes on the stack: the
head `0x7E`, the total length, two command bytes, the payload, and a CRC-16 over what stands between
head and CRC. The total length is kept in a byte of the buffer and read back from it.

A read or write outside the buffer has no defined result: the operations below then return `none`.
-/

namespace Edm

/-- `uint8_t buffer[256]`. -/
structure TcpBuffer where
  bytes : List Byte
  size : bytes.length = 256

namespace TcpBuffer

/-- `buffer[i] = v`. -/
def store (b : TcpBuffer) (i : ℤ) (v : Byte) : Option TcpBuffer :=
  if 0 ≤ i ∧ i < 256 then some ⟨b.bytes.set i.toNat v, by simp [b.size]⟩ else none

/-- `memcpy(&buffer[offset], data, size)`. -/
def memcpy (b : TcpBuffer) (offset : ℕ) (data : List Byte) (size : ℕ) : Option TcpBuffer :=
  if h : offset + size ≤ 256 ∧ size ≤ data.length then
    some ⟨b.bytes.take offset ++ data.take size ++ b.bytes.drop (offset + size), by
      have := b.size
      simp only [List.length_append, List.length_take, List.length_drop]
      omega⟩
  else none

end TcpBuffer

namespace ZynqConnectController

/-- What `MakeTcpPackage` writes to the log. -/
inductive Warning where
  | dataSizeAbove (dataSize limit : ℕ)
  | nullDataPtr (dataSize : ℕ)
  deriving DecidableEq, Repr

/-- The package, or `none` where the buffer is left, and the log. -/
structure Outcome where
  package : Option (List Byte)
  warnings : List Warning

/-- The buffer filled and the package cut out of it. `init` is what the stack held before. -/
def fillPackage (init : TcpBuffer) (frameId : Byte) (dataPtr : Option (List Byte))
    (dataSize : ℕ) : Option (List Byte) := do
  let buffer ← init.store 0 0x7E
  let buffer ← buffer.store 1 (BitVec.ofNat 8 (6 + dataSize))
  let buffer ← buffer.store 2 frameId
  let buffer ← buffer.store 3 0x00
  let buffer ← match dataPtr with
    | some data => buffer.memcpy 4 data dataSize
    | none => some buffer
  let total := (buffer.bytes.getD 1 0).toNat
  let crc ← tcpCrcTableCalc (buffer.bytes.drop 1) (total - 3)
  let buffer ← buffer.store (total - 2) ((crc >>> 8).setWidth 8)
  let buffer ← buffer.store (total - 1) ((crc &&& 0xFF).setWidth 8)
  return buffer.bytes.take total

/-- `dataPtr` is the memory behind the pointer, `none` for a null pointer. -/
def makeTcpPackage (init : TcpBuffer) (frameId : Byte) (dataPtr : Option (List Byte))
    (dataSize : ℕ) : Outcome :=
  let (size, tooLarge) :=
    if dataSize > 250 then (250, [.dataSizeAbove dataSize 250]) else (dataSize, [])
  let (size, nullPtr) :=
    if dataPtr.isNone ∧ size ≠ 0 then (0, [.nullDataPtr size]) else (size, [])
  ⟨fillPackage init frameId dataPtr size, tooLarge ++ nullPtr⟩

/-! ### What the receiver relies on -/

/-- The package a payload asks for, with the length byte `len` and the CRC in its last two bytes. -/
structure IsPackage (frameId : Byte) (payload p : List Byte) : Prop where
  /-- Head, length, command, payload, CRC: nothing else and in this order. -/
  layout : ∃ len hi lo : Byte, p = 0x7E :: len :: frameId :: 0 :: (payload ++ [hi, lo]) ∧
    len.toNat = p.length ∧
    hi ++ lo = Crc.check ccittPoly 0xFFFF (len :: frameId :: 0 :: payload)

/-- A receiver that goes by the layout: the command bytes and the payload of a good package. -/
def parseTcpPackage : List Byte → Option ((Byte × Byte) × List Byte)
  | head :: len :: cmd :: cmd' :: rest =>
    let payload := rest.take (rest.length - 2)
    match rest.drop (rest.length - 2) with
    | [hi, lo] =>
      if head = 0x7E ∧ len.toNat = rest.length + 4 ∧
          hi ++ lo = Crc.check ccittPoly 0xFFFF (len :: cmd :: cmd' :: payload) then
        some ((cmd, cmd'), payload)
      else none
    | _ => none
  | _ => none

theorem IsPackage.parse {frameId : Byte} {payload p : List Byte} (h : IsPackage frameId payload p) :
    parseTcpPackage p = some ((frameId, 0), payload) := by
  obtain ⟨len, hi, lo, rfl, hlen, hcrc⟩ := h.layout
  have hdrop : (payload ++ [hi, lo]).length - 2 = payload.length := by simp
  simp only [List.length_cons, List.length_append, List.length_nil] at hlen
  simp only [parseTcpPackage, hdrop, List.take_left', List.drop_left']
  rw [if_pos ⟨trivial, by simp [hlen], hcrc⟩]

/-- What is asked of the outcome: up to 250 bytes the package, above that a result in bounds and a
warning. -/
def Meets (frameId : Byte) (payload : List Byte) (o : Outcome) : Prop :=
  if payload.length ≤ 250 then
    ∃ p, o.package = some p ∧ IsPackage frameId payload p ∧
      parseTcpPackage p = some ((frameId, 0), payload)
  else o.package ≠ none ∧ o.warnings ≠ []

/-! ### The CRC in the package -/

theorem crc_bytes (crc : BitVec 16) :
    (crc >>> 8).setWidth 8 ++ (crc &&& 0xFF).setWidth 8 = crc := by
  have hmask : ∀ i < 8, (255#8)[i]? = some true := by decide
  apply BitVec.eq_of_getLsbD_eq
  intro i hi
  rw [BitVec.getLsbD_append]
  by_cases h : i < 8
  · have h1 : (255#8)[i] = true := by simpa [h] using hmask i h
    simp [h, h1]
  · have h8 : i - 8 < 8 := by omega
    simp [h, h8, Nat.add_sub_cancel' (Nat.le_of_not_lt h)]

/-! ### The buffer -/

theorem store_eq (b : TcpBuffer) {i : ℤ} (h0 : 0 ≤ i) (hi : i < 256) (v : Byte) :
    ∃ b', b.store i v = some b' ∧ b'.bytes = b.bytes.set i.toNat v :=
  ⟨_, if_pos ⟨h0, hi⟩, rfl⟩

theorem memcpy_eq (b : TcpBuffer) {data : List Byte} {size : ℕ} (h : 4 + size ≤ 256)
    (hd : size ≤ data.length) :
    ∃ b', b.memcpy 4 data size = some b' ∧
      b'.bytes = b.bytes.take 4 ++ data.take size ++ b.bytes.drop (4 + size) :=
  ⟨_, dif_pos ⟨h, hd⟩, rfl⟩

/-- The buffer once the payload is in it. -/
theorem filled_eq (init : TcpBuffer) (frameId : Byte) (dataPtr : Option (List Byte))
    {payload : List Byte} (hp : payload = (dataPtr.getD []).take payload.length)
    (hsize : payload.length ≤ 250) :
    ∃ rest : List Byte, rest.length + payload.length = 252 ∧ ∃ b : TcpBuffer,
      b.bytes = 0x7E :: BitVec.ofNat 8 (6 + payload.length) :: frameId :: 0 :: (payload ++ rest) ∧
      fillPackage init frameId dataPtr payload.length = (do
        let total := (b.bytes.getD 1 0).toNat
        let crc ← tcpCrcTableCalc (b.bytes.drop 1) (total - 3)
        let buffer ← b.store (total - 2) ((crc >>> 8).setWidth 8)
        let buffer ← buffer.store (total - 1) ((crc &&& 0xFF).setWidth 8)
        return buffer.bytes.take total) := by
  obtain ⟨b0, h0, e0⟩ := store_eq init (i := 0) (by decide) (by decide) 0x7E
  obtain ⟨b1, h1, e1⟩ := store_eq b0 (i := 1) (by decide) (by decide)
    (BitVec.ofNat 8 (6 + payload.length))
  obtain ⟨b2, h2, e2⟩ := store_eq b1 (i := 2) (by decide) (by decide) frameId
  obtain ⟨b3, h3, e3⟩ := store_eq b2 (i := 3) (by decide) (by decide) 0x00
  obtain ⟨x0, x1, x2, x3, tail, hx, htail⟩ : ∃ x0 x1 x2 x3 : Byte, ∃ tail : List Byte,
      init.bytes = x0 :: x1 :: x2 :: x3 :: tail ∧ tail.length = 252 := by
    have hs := init.size
    rcases hb : init.bytes with _ | ⟨x0, _ | ⟨x1, _ | ⟨x2, _ | ⟨x3, tail⟩⟩⟩⟩ <;>
      simp only [hb, List.length_cons, List.length_nil] at hs <;> try omega
    exact ⟨x0, x1, x2, x3, tail, rfl, by omega⟩
  have hb3 : b3.bytes =
      0x7E :: BitVec.ofNat 8 (6 + payload.length) :: frameId :: 0x00 :: tail := by
    rw [e3, e2, e1, e0, hx]
    rfl
  unfold fillPackage
  simp only [h0, h1, h2, h3, Option.bind_eq_bind, Option.bind_some]
  cases dataPtr with
  | none =>
    obtain rfl : payload = [] := by rw [hp]; simp
    exact ⟨tail, by simpa using htail, b3, by simpa using hb3, rfl⟩
  | some data =>
    have hp : payload = data.take payload.length := hp
    have hd : payload.length ≤ data.length := by
      have := congrArg List.length hp
      rw [List.length_take] at this
      omega
    obtain ⟨b4, h4, e4⟩ := memcpy_eq b3 (by omega) hd
    refine ⟨tail.drop payload.length, ?_, b4, ?_, by simp only [h4, Option.bind_some]⟩
    · rw [List.length_drop]; omega
    · rw [e4, hb3, ← hp, Nat.add_comm 4]
      rfl

/-- Up to 249 bytes the length byte holds the total length. -/
theorem fillPackage_eq (init : TcpBuffer) (frameId : Byte) (dataPtr : Option (List Byte))
    {payload : List Byte} (hp : payload = (dataPtr.getD []).take payload.length)
    (hsize : payload.length < 250) :
    ∃ p, fillPackage init frameId dataPtr payload.length = some p ∧
      IsPackage frameId payload p := by
  obtain ⟨rest, hrest, b, hb, hfill⟩ := filled_eq init frameId dataPtr hp (by omega)
  have hlen : (BitVec.ofNat 8 (6 + payload.length)).toNat = 6 + payload.length := by
    rw [BitVec.toNat_ofNat]; omega
  obtain ⟨r0, r1, rest, rfl⟩ : ∃ r0 r1 : Byte, ∃ rest' : List Byte, rest = r0 :: r1 :: rest' := by
    rcases rest with _ | ⟨r0, _ | ⟨r1, rest'⟩⟩ <;>
      simp only [List.length_cons, List.length_nil] at hrest <;> try omega
    exact ⟨r0, r1, rest', rfl⟩
  generalize hl : BitVec.ofNat 8 (6 + payload.length) = len at hb hlen
  have htotal : (b.bytes.getD 1 0).toNat = 6 + payload.length := by rw [hb]; exact hlen
  have hcrc : tcpCrcTableCalc (b.bytes.drop 1) ((6 + payload.length : ℕ) - 3) =
      some (Crc.check ccittPoly 0xFFFF (len :: frameId :: 0 :: payload)) := by
    rw [hb, ← tcpCrcLoop_eq _ (len :: frameId :: 0 :: payload) (r0 :: r1 :: rest)]
    unfold tcpCrcTableCalc
    congr 1
    simp only [List.length_cons]
    omega
  generalize hc : Crc.check ccittPoly 0xFFFF (len :: frameId :: 0 :: payload) = crc at hcrc
  obtain ⟨b5, h5, e5⟩ := store_eq b (i := (6 + payload.length : ℕ) - 2) (by omega) (by omega)
    ((crc >>> 8).setWidth 8)
  obtain ⟨b6, h6, e6⟩ := store_eq b5 (i := (6 + payload.length : ℕ) - 1) (by omega) (by omega)
    ((crc &&& 0xFF).setWidth 8)
  refine ⟨b6.bytes.take (6 + payload.length), ?_, ⟨len, (crc >>> 8).setWidth 8,
    (crc &&& 0xFF).setWidth 8, ?_, ?_, ?_⟩⟩
  · rw [hfill]
    simp only [htotal, hcrc, h5, h6, Option.bind_eq_bind, Option.bind_some]
    rfl
  · have i5 : ((6 + payload.length : ℕ) - 2 : ℤ).toNat = payload.length + 4 := by omega
    have i6 : ((6 + payload.length : ℕ) - 1 : ℤ).toNat = payload.length + 1 + 4 := by omega
    rw [e6, e5, hb, i5, i6]
    have ht : 6 + payload.length = payload.length + 2 + 4 := by omega
    simp [ht, List.take_append]
  · rw [hlen, List.length_take, b6.size]
    omega
  · rw [crc_bytes, hc]

/-- At 250 bytes the length byte is zero, and the CRC loop starts below zero. -/
theorem fillPackage_wraps (init : TcpBuffer) (frameId : Byte) (dataPtr : Option (List Byte))
    (h : 250 ≤ (dataPtr.getD []).length) : fillPackage init frameId dataPtr 250 = none := by
  have hsize : ((dataPtr.getD []).take 250).length = 250 := by
    rw [List.length_take]; omega
  have hp : (dataPtr.getD []).take 250 =
      (dataPtr.getD []).take ((dataPtr.getD []).take 250).length := by rw [hsize]
  obtain ⟨rest, _, b, hb, hfill⟩ := filled_eq init frameId dataPtr hp hsize.le
  have htotal : (b.bytes.getD 1 0).toNat = 0 := by
    rw [hb, hsize]
    rfl
  have hcrc : tcpCrcTableCalc (b.bytes.drop 1) ((0 : ℕ) - 3) = none :=
    tcpCrcLoop_negative _ _ (by decide)
  rw [← hsize, hfill]
  simp only [htotal, hcrc, Option.bind_eq_bind, Option.bind_none]

theorem makeTcpPackage_eq (init : TcpBuffer) (frameId : Byte) (dataPtr : Option (List Byte)) :
    (makeTcpPackage init frameId dataPtr (dataPtr.getD []).length).package =
      fillPackage init frameId dataPtr (min 250 (dataPtr.getD []).length) := by
  have hnull : ∀ n, n ≤ (dataPtr.getD []).length → ¬(dataPtr.isNone ∧ n ≠ 0) := by
    rintro n hn ⟨hd, hn0⟩
    cases dataPtr with
    | none => exact hn0 (Nat.le_zero.mp hn)
    | some data => simp at hd
  by_cases h : (dataPtr.getD []).length > 250
  · simp only [makeTcpPackage, if_pos h, if_neg (hnull 250 h.le), Nat.min_eq_left h.le]
  · simp only [makeTcpPackage, if_neg h, if_neg (hnull _ le_rfl),
      Nat.min_eq_right (Nat.le_of_not_lt h)]

theorem not_meets_of_large (init : TcpBuffer) (frameId : Byte) (dataPtr : Option (List Byte))
    (h : 250 ≤ (dataPtr.getD []).length) :
    ¬Meets frameId (dataPtr.getD [])
      (makeTcpPackage init frameId dataPtr (dataPtr.getD []).length) := by
  intro hm
  unfold Meets at hm
  rw [makeTcpPackage_eq, Nat.min_eq_left h, fillPackage_wraps init frameId dataPtr h] at hm
  split at hm
  · obtain ⟨p, hp, _⟩ := hm
    exact absurd hp (by simp)
  · exact absurd rfl hm.1

/-- The package is what the receiver relies on exactly for the payloads below 250 bytes. -/
theorem makeTcpPackage_meets_iff (init : TcpBuffer) (frameId : Byte)
    (dataPtr : Option (List Byte)) :
    Meets frameId (dataPtr.getD [])
        (makeTcpPackage init frameId dataPtr (dataPtr.getD []).length) ↔
      (dataPtr.getD []).length < 250 := by
  by_cases h : (dataPtr.getD []).length < 250
  · refine ⟨fun _ => h, fun _ => ?_⟩
    obtain ⟨p, hfill, hp⟩ := fillPackage_eq init frameId dataPtr List.take_length.symm h
    unfold Meets
    rw [if_pos h.le, makeTcpPackage_eq, Nat.min_eq_right h.le]
    exact ⟨p, hfill, hp, hp.parse⟩
  · exact ⟨fun hm => absurd hm (not_meets_of_large _ _ _ (Nat.le_of_not_lt h)),
      fun hlt => absurd hlt h⟩

/-- A payload of 250 zero bytes leaves the buffer. -/
theorem package_of_250_leaves_buffer :
    ¬Meets 1 (List.replicate 250 0)
      (makeTcpPackage ⟨List.replicate 256 0, List.length_replicate⟩ 1
        (some (List.replicate 250 0)) 250) := by
  have hlen : (List.replicate 250 (0 : Byte)).length = 250 := List.length_replicate
  have h := not_meets_of_large ⟨List.replicate 256 0, List.length_replicate⟩ 1
    (some (List.replicate 250 0)) hlen.ge
  rwa [Option.getD_some, hlen] at h

end ZynqConnectController

end Edm
