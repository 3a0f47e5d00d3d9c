import MicroProtocol.Protocol.FrameEncode

/-!
# The TLV section: two loops over the same attacker-controlled lengths

`validate_extensions` walks the TLV section of a header with a check at every
step; `decode_prefix` copies the entries out in a second loop that checks
nothing.  The two are tied together here.

* `walkExtensions_succ_iff` and `copyExtensions_succ` — one step of each loop, in
  exact arithmetic.
* `walkExtensions_tlvBytes`, `copyExtensions_tlvBytes` — on a section that
  `encode` wrote, the walk ends at its end and the copy returns the extensions.
* `tlvBytes_copyExtensions` — on any section the walk accepts, the copied
  extensions are exactly the ones whose encoding the section is.
* `copyExtensions_append` — what is copied does not depend on later bytes.
-/

namespace Vosp
namespace Protocol
namespace FrameCodec

open BigEndian

variable {p : Platform}

/-! ## One step of each loop -/

/-- The value size of the entry at `cursor`. -/
def valueSizeAt (input : List UInt8) (cursor : Nat) : Nat := (readU16 input (cursor + 2)).toNat

theorem valueSizeAt_lt (input : List UInt8) (cursor : Nat) : valueSizeAt input cursor < 65536 :=
  (readU16 input (cursor + 2)).toNat_lt

theorem valueSizeAt_append {input : List UInt8} {cursor : Nat} (h : cursor + 4 ≤ input.length)
    (rest : List UInt8) : valueSizeAt (input ++ rest) cursor = valueSizeAt input cursor := by
  rw [valueSizeAt, valueSizeAt, readU16_append (by omega)]

/-- One successful step of the walk: the entry at `cursor` lies inside the
header, and the walk goes on behind it. -/
theorem walkExtensions_succ_iff {header : List UInt8} (hlen : header.length ≤ 65535)
    {count cursor c : Nat} (hcursor : cursor ≤ header.length) :
    walkExtensions p header (count + 1) cursor = .ok c ↔
      cursor + 4 + valueSizeAt header cursor ≤ header.length ∧
      walkExtensions p header count (cursor + 4 + valueSizeAt header cursor) = .ok c := by
  have hmax := p.uint32Max_le_sizeMax
  have hsub : p.sub header.length cursor = header.length - cursor :=
    Platform.sub_eq (by omega) hcursor
  have hadd : p.add cursor 2 = cursor + 2 := Platform.add_eq (by omega)
  have hadd' : p.add cursor 4 = cursor + 4 := Platform.add_eq (by omega)
  have hsize := valueSizeAt_lt header cursor
  rw [walkExtensions, hsub]
  by_cases hshort : header.length - cursor < 4
  · rw [if_pos hshort]
    constructor
    · intro h
      cases h
    · intro h
      omega
  · have hsub' : p.sub header.length (cursor + 4) = header.length - (cursor + 4) :=
      Platform.sub_eq (by omega) (by omega)
    have hadd'' : p.add (cursor + 4) (valueSizeAt header cursor)
        = cursor + 4 + valueSizeAt header cursor := Platform.add_eq (by omega)
    rw [if_neg hshort]
    simp only [hadd, hadd', hsub']
    change (if valueSizeAt header cursor > header.length - (cursor + 4) then _ else
      walkExtensions p header count (p.add (cursor + 4) (valueSizeAt header cursor))) = _ ↔ _
    rw [hadd'']
    by_cases hvalue : valueSizeAt header cursor > header.length - (cursor + 4)
    · rw [if_pos hvalue]
      constructor
      · intro h
        cases h
      · intro h
        omega
    · rw [if_neg hvalue]
      exact ⟨fun h => ⟨by omega, h⟩, fun h => h.2⟩

theorem walkExtensions_error_code {header : List UInt8} {count cursor : Nat} {e : Error}
    (h : walkExtensions p header count cursor = .error e) : e.code = .malformedFrame := by
  induction count generalizing cursor with
  | zero => cases h
  | succ count ih =>
      rw [walkExtensions] at h
      split at h
      · cases h
        rfl
      simp only at h
      split at h
      · cases h
        rfl
      · exact ih h

/-- One step of the copying loop, inside a header of the size the wire allows. -/
theorem copyExtensions_succ {input : List UInt8} {count cursor : Nat} (hcursor : cursor ≤ 65535) :
    copyExtensions p input (count + 1) cursor =
      ⟨readU16 input cursor, slice input (cursor + 4) (valueSizeAt input cursor)⟩ ::
        copyExtensions p input count (cursor + 4 + valueSizeAt input cursor) := by
  have hmax := p.uint32Max_le_sizeMax
  have hsize := valueSizeAt_lt input cursor
  have hadd : p.add cursor 2 = cursor + 2 := Platform.add_eq (by omega)
  have hadd' : p.add cursor 4 = cursor + 4 := Platform.add_eq (by omega)
  have hadd'' : p.add (cursor + 4) (valueSizeAt input cursor)
      = cursor + 4 + valueSizeAt input cursor := Platform.add_eq (by omega)
  rw [copyExtensions]
  simp only [hadd, hadd']
  rw [← valueSizeAt, hadd'']
  rfl

/-! ## Reading back what was written -/

theorem valueSizeAt_wireBytes {before after : List UInt8} {e : Extension}
    (he : e.value.length ≤ 65535) :
    valueSizeAt (before ++ (e.wireBytes ++ after)) before.length = e.value.length := by
  have hsplit : before ++ (e.wireBytes ++ after)
      = (before ++ digits 2 e.id.toNat) ++ (digits 2 e.value.length ++ (e.value ++ after)) := by
    simp only [Extension.wireBytes, List.append_assoc]
  rw [valueSizeAt, hsplit]
  exact toNat_readU16_field (by simp) (by omega)

theorem readU16_wireBytes {before after : List UInt8} {e : Extension} :
    readU16 (before ++ (e.wireBytes ++ after)) before.length = e.id := by
  have hsplit : before ++ (e.wireBytes ++ after)
      = before ++ (digits 2 e.id.toNat ++ (digits 2 e.value.length ++ (e.value ++ after))) := by
    simp only [Extension.wireBytes, List.append_assoc]
  rw [hsplit, ← UInt16.toNat_inj]
  exact toNat_readU16_field rfl e.id.toNat_lt

theorem slice_wireBytes {before after : List UInt8} {e : Extension} :
    slice (before ++ (e.wireBytes ++ after)) (before.length + 4) e.value.length = e.value := by
  have hsplit : before ++ (e.wireBytes ++ after)
      = (before ++ (digits 2 e.id.toNat ++ digits 2 e.value.length)) ++ (e.value ++ after) := by
    simp only [Extension.wireBytes, List.append_assoc]
  rw [hsplit]
  exact slice_append (by simp) rfl

/-- The walk over a section `encode` wrote ends at its end. -/
theorem walkExtensions_tlvBytes {es : List Extension} {before : List UInt8}
    (hlen : before.length + extensionBytes es ≤ 65535) :
    walkExtensions p (before ++ tlvBytes es) es.length before.length
      = .ok (before.length + extensionBytes es) := by
  induction es generalizing before with
  | nil => simp [walkExtensions]
  | cons e es ih =>
      rw [extensionBytes_cons] at hlen
      have hsize : valueSizeAt (before ++ (e.wireBytes ++ tlvBytes es)) before.length
          = e.value.length := valueSizeAt_wireBytes (by omega)
      rw [tlvBytes_cons, List.length_cons, walkExtensions_succ_iff (by simp; omega) (by simp), hsize]
      refine ⟨by simp; omega, ?_⟩
      -- the walk goes on in the same header, seen as a longer part already read
      have hnext := @ih (before ++ e.wireBytes) (by simp; omega)
      rw [List.length_append, Extension.length_wireBytes, List.append_assoc] at hnext
      rw [extensionBytes_cons]
      convert hnext using 2 <;> omega

/-- The copying loop over a section `encode` wrote returns its extensions. -/
theorem copyExtensions_tlvBytes {es : List Extension} {before : List UInt8} (rest : List UInt8)
    (hlen : before.length + extensionBytes es ≤ 65535) :
    copyExtensions p (before ++ (tlvBytes es ++ rest)) es.length before.length = es := by
  induction es generalizing before with
  | nil => rfl
  | cons e es ih =>
      rw [extensionBytes_cons] at hlen
      have hsplit : before ++ (tlvBytes (e :: es) ++ rest)
          = before ++ (e.wireBytes ++ (tlvBytes es ++ rest)) := by
        rw [tlvBytes_cons, List.append_assoc]
      have hnext := @ih (before ++ e.wireBytes) (by simp; omega)
      rw [List.length_append, Extension.length_wireBytes, List.append_assoc] at hnext
      rw [hsplit, List.length_cons, copyExtensions_succ (by omega),
        valueSizeAt_wireBytes (by omega), readU16_wireBytes, slice_wireBytes,
        Nat.add_assoc before.length, hnext]

/-! ## Whatever the walk accepts is canonical -/

/-- The bytes of the entry at `cursor` are the encoding of what is copied from
there. -/
theorem wireBytes_at {header : List UInt8} {cursor : Nat}
    (h : cursor + 4 + valueSizeAt header cursor ≤ header.length) :
    Extension.wireBytes ⟨readU16 header cursor, slice header (cursor + 4) (valueSizeAt header cursor)⟩
      = slice header cursor (4 + valueSizeAt header cursor) := by
  have hid : digits 2 (readU16 header cursor).toNat = slice header cursor 2 :=
    digits_readU16 (by omega)
  have hsize : digits 2 (valueSizeAt header cursor) = slice header (cursor + 2) 2 :=
    digits_readU16 (by omega)
  have hlen : (slice header (cursor + 4) (valueSizeAt header cursor)).length
      = valueSizeAt header cursor := length_slice h
  rw [Extension.wireBytes, hlen, hid, hsize, show cursor + 4 = cursor + 2 + 2 from rfl, ← slice_add,
    ← slice_add, ← Nat.add_assoc]

/-- **Canonical TLVs.**  If the walk accepts `count` entries from `cursor` on, the
copying loop returns `count` extensions, and the bytes walked over are exactly
their encoding. -/
theorem tlvBytes_copyExtensions {header : List UInt8} (hlen : header.length ≤ 65535)
    {count cursor c : Nat} (hcursor : cursor ≤ header.length)
    (h : walkExtensions p header count cursor = .ok c) :
    (copyExtensions p header count cursor).length = count ∧
      c = cursor + extensionBytes (copyExtensions p header count cursor) ∧ c ≤ header.length ∧
      slice header cursor (extensionBytes (copyExtensions p header count cursor))
        = tlvBytes (copyExtensions p header count cursor) := by
  induction count generalizing cursor with
  | zero =>
      cases h
      simp [copyExtensions, slice, hcursor]
  | succ count ih =>
      obtain ⟨hentry, hrest⟩ := (walkExtensions_succ_iff hlen hcursor).1 h
      obtain ⟨hcount, hc, hle, htlv⟩ := ih hentry hrest
      have hvalue : (slice header (cursor + 4) (valueSizeAt header cursor)).length
          = valueSizeAt header cursor := length_slice hentry
      rw [copyExtensions_succ (by omega), List.length_cons, extensionBytes_cons, tlvBytes_cons,
        wireBytes_at hentry, ← htlv, hvalue]
      refine ⟨by rw [hcount], by omega, hle, ?_⟩
      rw [slice_add, Nat.add_assoc cursor]

/-- The copying loop over an accepted section ignores everything after it. -/
theorem copyExtensions_append {header : List UInt8} (hlen : header.length ≤ 65535)
    {count cursor c : Nat} (hcursor : cursor ≤ header.length)
    (h : walkExtensions p header count cursor = .ok c) (rest : List UInt8) :
    copyExtensions p (header ++ rest) count cursor = copyExtensions p header count cursor := by
  induction count generalizing cursor with
  | zero => rfl
  | succ count ih =>
      obtain ⟨hentry, hrest⟩ := (walkExtensions_succ_iff hlen hcursor).1 h
      rw [copyExtensions_succ (by omega), copyExtensions_succ (by omega),
        valueSizeAt_append (by omega), readU16_append (by omega), slice_append_left rest (by omega),
        ih hentry hrest]

end FrameCodec
end Protocol
end Vosp
