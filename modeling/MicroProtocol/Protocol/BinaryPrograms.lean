import MicroProtocol.Protocol.Binary

/-!
# Writer and reader programs

A program is a history of calls on one `BinaryWriter` or `BinaryReader`.  The
byte string a datum stands for is its `encoding`, and both classes are described
by it, one call at a time:

* a write appends the encoding, or changes nothing (`perform_of_fits`,
  `perform_of_not_fits`);
* a read takes a whole encoding off the front of the unread bytes, or changes
  nothing (`perform_cases`); it must succeed when an encoding of the right kind
  is there (`perform_of_encoding`), and it reports missing bytes when only the
  beginning of one is (`perform_of_truncated`).

The results about programs, `writer_programs_read_back` and
`reader_canonical_and_atomic`, are the two inductions over these.
-/

namespace Vosp
namespace Protocol

open BigEndian

namespace Datum

/-- The bytes a datum is written as. -/
def encoding : Datum → List UInt8
  | .integer width value => digits width.size value.toNat
  | .bytes bs => bs
  | .string value => digits prefixSize value.length ++ value

/-- The number of bytes a datum is written as. -/
def encodedLength : Datum → Nat
  | .integer width _ => width.size
  | .bytes bs => bs.length
  | .string value => prefixSize + value.length

/-- The length of a string has to fit its four-byte prefix. -/
def Encodable : Datum → Prop
  | .string value => value.length < 2 ^ 32
  | _ => True

@[simp] theorem length_encoding (d : Datum) : d.encoding.length = d.encodedLength := by
  cases d <;> simp [encoding, encodedLength]

end Datum

/-- The request that reads a datum back: the same width, the same byte count, or
any maximum that admits the string. -/
inductive Request.Matches : Request → Datum → Prop
  | integer (width : Width) (value : BitVec width.bits) :
      Matches (.integer width) (.integer width value)
  | bytes (bs : List UInt8) : Matches (.bytes bs.length) (.bytes bs)
  | string {maximum : Nat} {value : List UInt8} (h : value.length ≤ maximum) :
      Matches (.string maximum) (.string value)

/-- What the data of a program are written as. -/
def encodings (data : List Datum) : List UInt8 := data.flatMap Datum.encoding

@[simp] theorem encodings_nil : encodings [] = [] := rfl

@[simp] theorem encodings_cons (d : Datum) (data : List Datum) :
    encodings (d :: data) = d.encoding ++ encodings data := rfl

theorem toNat_lt_size {width : Width} (value : BitVec width.bits) :
    value.toNat < 256 ^ width.size := by
  have h : value.toNat < 2 ^ (8 * width.size) := value.isLt
  rwa [Nat.pow_mul] at h

/-! ## Writing -/

namespace BinaryWriter

variable {p : Platform}

theorem canAppend_iff {w : BinaryWriter p} (hw : w.bytes.length ≤ w.limit) (count : Nat) :
    w.canAppend count = true ↔ count ≤ w.limit - w.bytes.length := by
  rw [canAppend, Nat.min_eq_right hw, Platform.sub_eq w.limit_le hw, decide_eq_true_eq]

theorem appendShifts_byteShifts (n : Nat) (output : List UInt8) (v : Nat) :
    appendShifts (byteShifts n) output v = output ++ digits n v :=
  appendShifts_eq_digits n output v

/-- The guard of `write_string` is that of the other operations, on the encoded
length: the two tests before it rule out a sum that would wrap. -/
theorem writeString_guard_iff {w : BinaryWriter p} (hw : w.bytes.length ≤ w.limit)
    (value : List UInt8) :
    (value.length > uint32Max ∨ value.length > p.sub p.sizeMax prefixSize ∨
        w.canAppend (p.add prefixSize value.length) = false) ↔
      ¬(value.length < 2 ^ 32 ∧ prefixSize + value.length ≤ w.limit - w.bytes.length) := by
  have hmax := p.uint32Max_le_sizeMax
  have hlimit := w.limit_le
  have hsub : p.sub p.sizeMax prefixSize = p.sizeMax - 4 :=
    Platform.sub_eq le_rfl (by simp only [prefixSize]; omega)
  rw [hsub]
  by_cases hfit : value.length ≤ p.sizeMax - 4
  · have hadd : p.add prefixSize value.length = prefixSize + value.length :=
      Platform.add_eq (by simp only [prefixSize]; omega)
    rw [hadd, ← Bool.not_eq_true, canAppend_iff hw]
    simp only [uint32Max, prefixSize]
    omega
  · simp only [uint32Max, prefixSize]
    constructor
    · intro _
      omega
    · intro _
      exact .inr (.inl (by omega))

/-- **A datum that fits is appended.** -/
theorem perform_of_fits {w : BinaryWriter p} (hw : w.bytes.length ≤ w.limit) {d : Datum}
    (hd : d.Encodable) (hfit : d.encodedLength ≤ w.limit - w.bytes.length) :
    w.perform d = (.ok (), { w with bytes := w.bytes ++ d.encoding }) := by
  cases d with
  | integer width value =>
      have hcan : w.canAppend width.size = true := (canAppend_iff hw _).2 hfit
      simp [perform, write, hcan, appendShifts_byteShifts, Datum.encoding]
  | bytes bytes =>
      have hcan : w.canAppend bytes.length = true := (canAppend_iff hw _).2 hfit
      simp [perform, writeBytes, hcan, Datum.encoding]
  | string value =>
      have hguard := mt (writeString_guard_iff hw value).1 (not_not.2 ⟨hd, hfit⟩)
      have hlength : (UInt32.ofNat value.length).toNat = value.length := by
        rw [UInt32.toNat_ofNat', Nat.mod_eq_of_lt hd]
      rw [perform, writeString, if_neg hguard]
      simp [hlength, appendShifts_byteShifts, Datum.encoding]

/-- **A datum that does not fit is refused, and nothing changes.** -/
theorem perform_of_not_fits {w : BinaryWriter p} (hw : w.bytes.length ≤ w.limit) {d : Datum}
    (h : ¬(d.Encodable ∧ d.encodedLength ≤ w.limit - w.bytes.length)) :
    ∃ e : Error, e.code = .limitExceeded ∧ w.perform d = (.error e, w) := by
  cases d with
  | integer width value =>
      have hcan : w.canAppend width.size = false := by
        rw [← Bool.not_eq_true, canAppend_iff hw]
        exact fun hfit => h ⟨trivial, hfit⟩
      exact ⟨⟨.limitExceeded, "binary writer limit exceeded"⟩, rfl,
        by simp [perform, write, hcan, failure]⟩
  | bytes bytes =>
      have hcan : w.canAppend bytes.length = false := by
        rw [← Bool.not_eq_true, canAppend_iff hw]
        exact fun hfit => h ⟨trivial, hfit⟩
      exact ⟨⟨.limitExceeded, "binary writer limit exceeded"⟩, rfl,
        by simp [perform, writeBytes, hcan, failure]⟩
  | string value =>
      refine ⟨⟨.limitExceeded, "binary string limit exceeded"⟩, rfl, ?_⟩
      rw [perform, writeString, if_pos ((writeString_guard_iff hw value).2 h), failure]

/-- The data of a program that were written, in order. -/
def written (w : BinaryWriter p) : List Datum → List Datum
  | [] => []
  | d :: program =>
      if (w.perform d).1.isOk then d :: written (w.perform d).2 program
      else written (w.perform d).2 program

/-- What one write does to the three things a program is judged by. -/
theorem perform_spec {w : BinaryWriter p} (hw : w.bytes.length ≤ w.limit) (d : Datum) :
    (d.Encodable ∧ d.encodedLength ≤ w.limit - w.bytes.length ∧
      w.perform d = (.ok (), { w with bytes := w.bytes ++ d.encoding })) ∨
    (¬(d.Encodable ∧ d.encodedLength ≤ w.limit - w.bytes.length) ∧
      ∃ e : Error, e.code = .limitExceeded ∧ w.perform d = (.error e, w)) := by
  by_cases h : d.Encodable ∧ d.encodedLength ≤ w.limit - w.bytes.length
  · exact .inl ⟨h.1, h.2, perform_of_fits hw h.1 h.2⟩
  · exact .inr ⟨h, perform_of_not_fits hw h⟩

@[simp] theorem machine_step (w₀ w : BinaryWriter p) (d : Datum) :
    w₀.machine.step w d = w.perform d := rfl

/-- A program appends the encodings of the data it wrote, all of them encodable,
and stays within its limit. -/
theorem exec_spec (w₀ : BinaryWriter p) {w : BinaryWriter p} (hw : w.bytes.length ≤ w.limit)
    (program : List Datum) :
    (w₀.machine.exec w program).limit = w.limit ∧
    (w₀.machine.exec w program).bytes = w.bytes ++ encodings (w.written program) ∧
    (w₀.machine.exec w program).bytes.length ≤ w.limit ∧
    ∀ d ∈ w.written program, d.Encodable := by
  induction program generalizing w with
  | nil => exact ⟨rfl, by simp [written], hw, by simp [written]⟩
  | cons d program ih =>
      obtain ⟨hd, hfit, hstep⟩ | ⟨-, e, -, hstep⟩ := perform_spec hw d
      · -- the datum went out: the rest of the program runs from a longer buffer
        have hw' : (w.bytes ++ d.encoding).length ≤ w.limit := by
          rw [List.length_append, d.length_encoding]
          omega
        obtain ⟨hlimit, hbytes, hlength, hall⟩ :=
          @ih { w with bytes := w.bytes ++ d.encoding } hw'
        have hwritten : w.written (d :: program)
            = d :: written { w with bytes := w.bytes ++ d.encoding } program := by
          simp [written, hstep, Except.isOk, Except.toBool]
        rw [hwritten, Machine.exec_cons, machine_step, hstep]
        refine ⟨hlimit, ?_, hlength, ?_⟩
        · rw [encodings_cons, ← List.append_assoc]
          exact hbytes
        · rintro d' (_ | ⟨_, hd'⟩)
          · exact hd
          · exact hall d' hd'
      · have hwritten : w.written (d :: program) = w.written program := by
          simp [written, hstep, Except.isOk, Except.toBool]
        rw [hwritten, Machine.exec_cons, machine_step, hstep]
        exact ih hw

/-- A program whose data all fit writes all of them. -/
theorem exec_of_fits (w₀ : BinaryWriter p) {w : BinaryWriter p} (hw : w.bytes.length ≤ w.limit)
    {data : List Datum} (hd : ∀ d ∈ data, d.Encodable)
    (hfit : (encodings data).length ≤ w.limit - w.bytes.length) :
    (∀ answer ∈ w₀.machine.outs w data, answer = .ok ()) ∧
    (w₀.machine.exec w data).bytes = w.bytes ++ encodings data := by
  induction data generalizing w with
  | nil => simp
  | cons d data ih =>
      rw [encodings_cons, List.length_append, d.length_encoding] at hfit
      have hstep := perform_of_fits hw (hd d List.mem_cons_self) (le_trans (Nat.le_add_right _ _) hfit)
      have hlength : (w.bytes ++ d.encoding).length = w.bytes.length + d.encodedLength := by
        rw [List.length_append, d.length_encoding]
      obtain ⟨houts, hbytes⟩ := @ih { w with bytes := w.bytes ++ d.encoding }
        (show (w.bytes ++ d.encoding).length ≤ w.limit by omega)
        (fun d' hd' => hd d' (List.mem_cons_of_mem d hd'))
        (show (encodings data).length ≤ w.limit - (w.bytes ++ d.encoding).length by omega)
      rw [Machine.outs_cons, Machine.exec_cons, machine_step, hstep]
      refine ⟨?_, ?_⟩
      · rintro answer (_ | ⟨_, hanswer⟩)
        · rfl
        · exact houts answer hanswer
      · rw [hbytes, encodings_cons, List.append_assoc]

end BinaryWriter

/-! ## Reading -/

namespace BinaryReader

variable {p : Platform}

/-- The position is inside the input, or right behind it. -/
def Within (r : BinaryReader p) : Prop := r.position ≤ r.bytes.length

/-- The bytes from the position on. -/
def unread (r : BinaryReader p) : List UInt8 := r.bytes.drop r.position

/-- The reader `count` bytes further on. -/
def advance (r : BinaryReader p) (count : Nat) : BinaryReader p :=
  { r with position := r.position + count }

theorem Within.remaining_eq {r : BinaryReader p} (hr : r.Within) : r.remaining = r.unread.length := by
  rw [remaining, unread, List.length_drop]
  exact Platform.sub_eq r.size_le hr

/-- A step that stays in the input does not wrap. -/
theorem Within.advance_eq {r : BinaryReader p} (hr : r.Within) {count : Nat}
    (h : count ≤ r.unread.length) :
    p.add r.position count = r.position + count := by
  have hsize := r.size_le
  have hpos : r.position ≤ r.bytes.length := hr
  rw [unread, List.length_drop] at h
  exact Platform.add_eq (by omega)

theorem Within.moved {r : BinaryReader p} (hr : r.Within) {count : Nat}
    (h : count ≤ r.unread.length) : (r.advance count).Within := by
  have hpos : r.position ≤ r.bytes.length := hr
  rw [unread, List.length_drop] at h
  show r.position + count ≤ r.bytes.length
  omega

theorem unread_advance (r : BinaryReader p) (count : Nat) :
    (r.advance count).unread = r.unread.drop count := by
  rw [unread, unread, List.drop_drop]
  rfl

theorem advance_advance (r : BinaryReader p) (m n : Nat) :
    (r.advance m).advance n = r.advance (m + n) := by
  simp only [advance, Nat.add_assoc]

theorem Within.readLoop_eq {r : BinaryReader p} (hr : r.Within) {width count : Nat}
    (hw : 8 * count ≤ width) (h : count ≤ r.unread.length) :
    readLoop width count r.bytes r.position = value (r.unread.take count) := by
  have hpos : r.position ≤ r.bytes.length := hr
  rw [unread, List.length_drop] at h
  exact Protocol.readLoop_eq hw (by omega)

theorem Within.read_eq {r : BinaryReader p} (hr : r.Within) {width : Width}
    (h : width.size ≤ r.unread.length) :
    r.read width = (.ok (BitVec.ofNat width.bits (value (r.unread.take width.size))),
      r.advance width.size) := by
  have hloop : readLoop width.bits width.size r.bytes r.position
      = value (r.unread.take width.size) := hr.readLoop_eq le_rfl h
  rw [read, if_neg (by rw [hr.remaining_eq]; omega), hloop, hr.advance_eq h]
  rfl

theorem Within.readBytes_eq {r : BinaryReader p} (hr : r.Within) {count : Nat}
    (h : count ≤ r.unread.length) :
    r.readBytes count = (.ok (r.unread.take count), r.advance count) := by
  rw [readBytes, if_neg (by rw [hr.remaining_eq]; omega), hr.advance_eq h]
  rfl

/-- The length a string announces. -/
def announced (r : BinaryReader p) : Nat := value (r.unread.take prefixSize)

theorem announced_lt (r : BinaryReader p) : r.announced < 2 ^ 32 :=
  value_slice_lt r.bytes r.position prefixSize

theorem Within.readString_eq {r : BinaryReader p} (hr : r.Within) (maximum : Nat)
    (h : prefixSize ≤ r.unread.length) :
    r.readString maximum =
      if r.announced > maximum then
        (failure .limitExceeded "binary string limit exceeded", r)
      else if prefixSize + r.announced > r.unread.length then
        (failure .insufficientData "binary string payload is truncated", r)
      else
        (.ok ((r.unread.drop prefixSize).take r.announced),
          r.advance (prefixSize + r.announced)) := by
  have hsize : (UInt32.ofNat (readLoop 32 prefixSize r.bytes r.position)).toNat = r.announced := by
    rw [hr.readLoop_eq (by decide) h, ← announced, UInt32.toNat_ofNat',
      Nat.mod_eq_of_lt r.announced_lt]
  have hrest : p.sub r.remaining prefixSize = r.unread.length - prefixSize := by
    rw [hr.remaining_eq]
    refine Platform.sub_eq (le_trans ?_ r.size_le) h
    rw [unread, List.length_drop]
    exact Nat.sub_le _ _
  rw [readString, if_neg (by rw [hr.remaining_eq]; omega)]
  simp only [hsize, hrest, hr.advance_eq h]
  by_cases hmax : r.announced > maximum
  · rw [if_pos hmax, if_pos hmax]
  · rw [if_neg hmax, if_neg hmax]
    by_cases hpay : prefixSize + r.announced > r.unread.length
    · rw [if_pos hpay, if_pos (by omega)]
    · have hfits : r.announced ≤ (r.advance prefixSize).unread.length := by
        rw [unread_advance, List.length_drop]
        omega
      have hadd : p.add (r.position + prefixSize) r.announced
          = r.position + prefixSize + r.announced := (hr.moved h).advance_eq hfits
      rw [if_neg hpay, if_neg (by omega), hadd, Nat.add_assoc, unread, List.drop_drop]
      rfl

theorem announced_eq {r : BinaryReader p} {n : Nat} (hn : n < 2 ^ 32)
    (h : r.unread.take prefixSize = digits prefixSize n) : r.announced = n := by
  rw [announced, h]
  exact value_digits_of_lt hn

/-- The digits of a value that was read are the bytes it was read from. -/
theorem digits_unread {r : BinaryReader p} {count : Nat} (h : count ≤ r.unread.length) :
    digits count (value (r.unread.take count)) = r.unread.take count := by
  have hdigits := digits_value (r.unread.take count)
  rwa [List.length_take_of_le h] at hdigits

/-- An encoding that is there is not longer than what is there. -/
theorem encodedLength_le_unread {r : BinaryReader p} {d : Datum} (h : d.encoding <+: r.unread) :
    d.encodedLength ≤ r.unread.length := by
  rw [← d.length_encoding]
  exact h.length_le

/-! Where bytes are missing nothing happens. -/

theorem Within.perform_integer_short {r : BinaryReader p} (hr : r.Within) {width : Width}
    (h : r.unread.length < width.size) :
    r.perform (.integer width)
      = (.error ⟨.insufficientData, "binary value is truncated"⟩, r) := by
  rw [perform, read, if_pos (by rwa [hr.remaining_eq]), failure]
  rfl

theorem Within.perform_bytes_short {r : BinaryReader p} (hr : r.Within) {count : Nat}
    (h : r.unread.length < count) :
    r.perform (.bytes count)
      = (.error ⟨.insufficientData, "binary byte range is truncated"⟩, r) := by
  rw [perform, readBytes, if_pos (by rwa [hr.remaining_eq]), failure]
  rfl

theorem Within.perform_string_short {r : BinaryReader p} (hr : r.Within) (maximum : Nat)
    (h : r.unread.length < prefixSize) :
    r.perform (.string maximum)
      = (.error ⟨.insufficientData, "binary string length is truncated"⟩, r) := by
  rw [perform, readString, if_pos (by rwa [hr.remaining_eq]), failure]
  rfl

/-- **A read takes a whole encoding off the front of the unread bytes, or nothing
happens.** -/
theorem Within.perform_cases {r : BinaryReader p} (hr : r.Within) (request : Request) :
    (∃ d : Datum, d.Encodable ∧ d.encoding <+: r.unread ∧
      r.perform request = (.ok d, r.advance d.encodedLength)) ∨
    ∃ e : Error, r.perform request = (.error e, r) := by
  cases request with
  | integer width =>
      by_cases h : width.size ≤ r.unread.length
      · have hlt : value (r.unread.take width.size) < 2 ^ width.bits := by
          have := value_slice_lt r.bytes r.position width.size
          rwa [show (256 : Nat) = 2 ^ 8 from rfl, ← Nat.pow_mul] at this
        refine .inl ⟨.integer width (BitVec.ofNat width.bits (value (r.unread.take width.size))),
          trivial, ?_, ?_⟩
        · rw [Datum.encoding, BitVec.toNat_ofNat, Nat.mod_eq_of_lt hlt, digits_unread h]
          exact List.take_prefix _ _
        · simp [perform, hr.read_eq h, Except.map, Datum.encodedLength]
      · exact .inr ⟨_, hr.perform_integer_short (Nat.lt_of_not_le h)⟩
  | bytes count =>
      by_cases h : count ≤ r.unread.length
      · refine .inl ⟨.bytes (r.unread.take count), trivial, List.take_prefix _ _, ?_⟩
        simp [perform, hr.readBytes_eq h, Except.map, Datum.encodedLength, Nat.min_eq_left h]
      · exact .inr ⟨_, hr.perform_bytes_short (Nat.lt_of_not_le h)⟩
  | string maximum =>
      by_cases h : prefixSize ≤ r.unread.length
      · rw [perform, hr.readString_eq maximum h]
        split_ifs with hmax hpay
        · exact .inr ⟨_, rfl⟩
        · exact .inr ⟨_, rfl⟩
        · have hlength : ((r.unread.drop prefixSize).take r.announced).length = r.announced := by
            rw [List.length_take_of_le]
            rw [List.length_drop]
            omega
          have hdigits : digits prefixSize r.announced = r.unread.take prefixSize :=
            digits_unread h
          refine .inl ⟨.string ((r.unread.drop prefixSize).take r.announced), ?_, ?_, ?_⟩
          · rw [Datum.Encodable, hlength]
            exact r.announced_lt
          · rw [Datum.encoding, hlength, hdigits, ← List.take_add]
            exact List.take_prefix _ _
          · rw [Datum.encodedLength, hlength]
            rfl
      · exact .inr ⟨_, hr.perform_string_short maximum (Nat.lt_of_not_le h)⟩

/-- **A matching read of an encoding that is there returns the datum.** -/
theorem Within.perform_of_encoding {r : BinaryReader p} (hr : r.Within) {request : Request}
    {d : Datum} (hm : request.Matches d) (hd : d.Encodable) {rest : List UInt8}
    (h : r.unread = d.encoding ++ rest) :
    r.perform request = (.ok d, r.advance d.encodedLength) := by
  have hlength : d.encodedLength ≤ r.unread.length := encodedLength_le_unread ⟨rest, h.symm⟩
  have htake : r.unread.take d.encodedLength = d.encoding := by
    rw [h, List.take_left' d.length_encoding]
  cases hm with
  | integer width v =>
      simp only [Datum.encodedLength, Datum.encoding] at hlength htake
      rw [perform, hr.read_eq hlength, htake, value_digits_of_lt (toNat_lt_size v),
        BitVec.ofNat_toNat, BitVec.setWidth_eq]
      rfl
  | bytes bs =>
      simp only [Datum.encodedLength, Datum.encoding] at hlength htake
      rw [perform, hr.readBytes_eq hlength, htake]
      rfl
  | @string maximum v hle =>
      simp only [Datum.encodedLength] at hlength
      simp only [Datum.encoding, List.append_assoc] at h
      have hannounced : r.announced = v.length :=
        announced_eq hd (by rw [h, List.take_left' (length_digits _ _)])
      rw [perform, hr.readString_eq maximum (by omega), hannounced, if_neg (by omega),
        if_neg (by omega), h, List.drop_left' (length_digits _ _), List.take_left' rfl]
      rfl

/-- **A matching read of an encoding that has only begun reports missing
bytes.** -/
theorem Within.perform_of_truncated {r : BinaryReader p} (hr : r.Within) {request : Request}
    {d : Datum} (hm : request.Matches d) (hd : d.Encodable) (hpre : r.unread <+: d.encoding)
    (hshort : r.unread.length < d.encodedLength) :
    ∃ e : Error, e.code = .insufficientData ∧ r.perform request = (.error e, r) := by
  cases hm with
  | integer width v => exact ⟨_, rfl, hr.perform_integer_short hshort⟩
  | bytes bs => exact ⟨_, rfl, hr.perform_bytes_short hshort⟩
  | @string maximum v hle =>
      by_cases hprefix : prefixSize ≤ r.unread.length
      · -- the length has arrived and is the one that was written, so the maximum is met
        have htake : r.unread.take prefixSize = digits prefixSize v.length := by
          obtain ⟨missing, hmissing⟩ := hpre
          rw [← List.take_append_of_le_length hprefix, hmissing, Datum.encoding,
            List.take_left' (length_digits _ _)]
        have hannounced : r.announced = v.length := announced_eq hd htake
        simp only [Datum.encodedLength] at hshort
        refine ⟨⟨.insufficientData, "binary string payload is truncated"⟩, rfl, ?_⟩
        rw [perform, hr.readString_eq maximum hprefix, hannounced, if_neg (by omega),
          if_pos (by omega), failure]
        rfl
      · exact ⟨_, rfl, hr.perform_string_short maximum (Nat.lt_of_not_le hprefix)⟩

@[simp] theorem machine_step (r₀ r : BinaryReader p) (request : Request) :
    r₀.machine.step r request = r.perform request := rfl

/-- The data a program of reads returned, in order. -/
def returned (answers : List (Result Datum)) : List Datum := answers.filterMap Except.toOption

/-- The matching program reads a sequence of encodings back. -/
theorem Within.read_back (r₀ : BinaryReader p) {r : BinaryReader p} (hr : r.Within)
    {requests : List Request} {data : List Datum} (hm : List.Forall₂ Request.Matches requests data)
    (hd : ∀ d ∈ data, d.Encodable) {rest : List UInt8} (h : r.unread = encodings data ++ rest) :
    r₀.machine.outs r requests = data.map .ok ∧
    r₀.machine.exec r requests = r.advance (encodings data).length := by
  induction hm generalizing r with
  | nil => exact ⟨rfl, rfl⟩
  | @cons request d requests data hmatch _ ih =>
      rw [encodings_cons, List.append_assoc] at h
      have hstep := hr.perform_of_encoding hmatch (hd d List.mem_cons_self) h
      have hunread : (r.advance d.encodedLength).unread = encodings data ++ rest := by
        rw [unread_advance, h, List.drop_left' d.length_encoding]
      have hlength : d.encodedLength ≤ r.unread.length := encodedLength_le_unread ⟨_, h.symm⟩
      obtain ⟨houts, hexec⟩ :=
        ih (hr.moved hlength) (fun d' hd' => hd d' (List.mem_cons_of_mem d hd')) hunread
      rw [Machine.outs_cons, Machine.exec_cons, machine_step, hstep]
      refine ⟨?_, ?_⟩
      · rw [List.map_cons, houts]
      · rw [hexec, encodings_cons, List.length_append, d.length_encoding, advance_advance]

/-- The matching program over a cut sequence of encodings returns the data that
are whole, and then reports missing bytes. -/
theorem Within.read_truncated (r₀ : BinaryReader p) {r : BinaryReader p} (hr : r.Within)
    {requests : List Request} {data : List Datum} (hm : List.Forall₂ Request.Matches requests data)
    (hd : ∀ d ∈ data, d.Encodable) {missing : List UInt8} (hne : missing ≠ [])
    (h : r.unread ++ missing = encodings data) :
    ∃ k < data.length, ∃ e : Error, e.code = .insufficientData ∧
      (r₀.machine.outs r requests).take (k + 1) = (data.take k).map .ok ++ [.error e] := by
  induction hm generalizing r with
  | nil =>
      rw [encodings_nil, List.append_eq_nil_iff] at h
      exact absurd h.2 hne
  | @cons request d requests data hmatch _ ih =>
      have hfirst := hd d List.mem_cons_self
      rw [encodings_cons] at h
      rw [Machine.outs_cons, machine_step]
      -- either the first datum is whole, or the cut is inside it
      by_cases hshort : r.unread.length < d.encodedLength
      · have hpre : r.unread <+: d.encoding := by
          refine List.prefix_of_prefix_length_le ⟨missing, h⟩ (List.prefix_append _ _) ?_
          rw [d.length_encoding]
          exact hshort.le
        obtain ⟨e, he, hstep⟩ := hr.perform_of_truncated hmatch hfirst hpre hshort
        refine ⟨0, Nat.succ_pos _, e, he, ?_⟩
        rw [hstep]
        rfl
      · have hpre : d.encoding <+: r.unread := by
          refine List.prefix_of_prefix_length_le (List.prefix_append _ _) ⟨missing, h⟩ ?_
          rw [d.length_encoding]
          exact Nat.le_of_not_lt hshort
        obtain ⟨rest, hrest⟩ := hpre
        have hstep := hr.perform_of_encoding hmatch hfirst hrest.symm
        have hunread : (r.advance d.encodedLength).unread ++ missing = encodings data := by
          rw [← hrest, List.append_assoc] at h
          rw [unread_advance, ← hrest, List.drop_left' d.length_encoding]
          exact List.append_cancel_left h
        obtain ⟨k, hk, e, he, houts⟩ := ih (hr.moved (Nat.le_of_not_lt hshort))
          (fun d' hd' => hd d' (List.mem_cons_of_mem d hd')) hunread
        refine ⟨k + 1, Nat.succ_lt_succ hk, e, he, ?_⟩
        rw [hstep, List.take_succ_cons, houts]
        rfl

/-- What a program of reads has done: it never leaves the input, and the data it
returned are encodable and written as exactly the bytes it went past. -/
theorem Within.exec_spec (r₀ : BinaryReader p) {r : BinaryReader p} (hr : r.Within)
    (requests : List Request) :
    (r₀.machine.exec r requests).bytes = r.bytes ∧
    (r₀.machine.exec r requests).Within ∧
    (∀ d ∈ returned (r₀.machine.outs r requests), d.Encodable) ∧
    r.unread = encodings (returned (r₀.machine.outs r requests)) ++
      (r₀.machine.exec r requests).unread ∧
    (r₀.machine.exec r requests).position
      = r.position + (encodings (returned (r₀.machine.outs r requests))).length := by
  induction requests generalizing r with
  | nil => exact ⟨rfl, hr, by simp [returned], by simp [returned], by simp [returned]⟩
  | cons request requests ih =>
      rw [Machine.exec_cons, Machine.outs_cons, machine_step]
      obtain ⟨d, hd, ⟨rest, hrest⟩, hstep⟩ | ⟨e, hstep⟩ := hr.perform_cases request
      · have hlength : d.encodedLength ≤ r.unread.length := encodedLength_le_unread ⟨rest, hrest⟩
        obtain ⟨hbytes, hwithin, hall, hunread, hposition⟩ := ih (hr.moved hlength)
        have hreturned : returned (Except.ok d :: r₀.machine.outs (r.advance d.encodedLength) requests)
            = d :: returned (r₀.machine.outs (r.advance d.encodedLength) requests) := rfl
        rw [hstep, hreturned]
        refine ⟨hbytes, hwithin, ?_, ?_, ?_⟩
        · rintro d' (_ | ⟨_, hd'⟩)
          · exact hd
          · exact hall d' hd'
        · rw [encodings_cons, List.append_assoc, ← hunread, unread_advance, ← hrest,
            List.drop_left' d.length_encoding]
        · rw [hposition, encodings_cons, List.length_append, d.length_encoding, ← Nat.add_assoc]
          rfl
      · rw [hstep]
        exact ih hr

end BinaryReader

/-! ## Programs -/

/-- **Writer programs are read back exactly.**  Take any writer that starts
empty, after any program.  Its size is within the limit; the next operation
succeeds exactly when its datum is encodable and its encoded length fits in what
the limit leaves, and otherwise it reports `limit_exceeded` and keeps the bytes.
Every reader that makes the matching requests over the bytes written, whatever
follows them, returns the data written and stops right behind them; over a strict
prefix of those bytes it returns some of the first data and then reports
`insufficient_data`. -/
theorem writer_programs_read_back {p q : Platform} (w : BinaryWriter p) (hempty : w.bytes = [])
    (program : List Datum) :
    (w.machine.exec w program).bytes.length ≤ w.limit ∧
    (∀ d : Datum,
      (((w.machine.exec w program).perform d).1 = .ok () ↔
        d.Encodable ∧ d.encodedLength ≤ w.limit - (w.machine.exec w program).bytes.length) ∧
      ∀ e : Error, ((w.machine.exec w program).perform d).1 = .error e →
        e.code = .limitExceeded ∧
        ((w.machine.exec w program).perform d).2.bytes = (w.machine.exec w program).bytes) ∧
    ∀ (r : BinaryReader q) (requests : List Request), r.position = 0 →
      List.Forall₂ Request.Matches requests (w.written program) →
      (∀ rest, r.bytes = (w.machine.exec w program).bytes ++ rest →
        r.machine.outs r requests = (w.written program).map .ok ∧
        (r.machine.exec r requests).position = (w.machine.exec w program).bytes.length) ∧
      ∀ missing, missing ≠ [] → r.bytes ++ missing = (w.machine.exec w program).bytes →
        ∃ k < (w.written program).length, ∃ e : Error, e.code = .insufficientData ∧
          (r.machine.outs r requests).take (k + 1)
            = ((w.written program).take k).map .ok ++ [.error e] := by
  have hw : w.bytes.length ≤ w.limit := by
    rw [hempty]
    exact Nat.zero_le _
  obtain ⟨hlimit, hbytes, hlength, hall⟩ := BinaryWriter.exec_spec w hw program
  rw [hempty, List.nil_append] at hbytes
  refine ⟨hlength, ?_, ?_⟩
  · intro d
    rw [← hlimit] at hlength ⊢
    obtain ⟨hd, hfit, hstep⟩ | ⟨hno, e, he, hstep⟩ := BinaryWriter.perform_spec hlength d
    · rw [hstep]
      exact ⟨iff_of_true rfl ⟨hd, hfit⟩, by simp⟩
    · rw [hstep]
      refine ⟨iff_of_false (by simp) hno, ?_⟩
      rintro e' ⟨⟩
      exact ⟨he, rfl⟩
  · intro r requests hstart hmatch
    have hr : r.Within := by
      rw [BinaryReader.Within, hstart]
      exact Nat.zero_le _
    have hunread : r.unread = r.bytes := by
      rw [BinaryReader.unread, hstart, List.drop_zero]
    constructor
    · intro rest hrest
      rw [hbytes] at hrest
      obtain ⟨houts, hexec⟩ := hr.read_back r hmatch hall (hunread.trans hrest)
      refine ⟨houts, ?_⟩
      rw [hexec, hbytes, BinaryReader.advance, hstart, Nat.zero_add]
    · intro missing hne hcut
      rw [hbytes] at hcut
      exact hr.read_truncated r hmatch hall hne (by rw [hunread, hcut])

/-- The program of `test_binary_codec`, on its writer of 128 bytes. -/
def codecProgram : List Datum :=
  [.integer .w16 0x1234, .integer .w32 0x89abcdef, .string [0x56, 0x4f, 0x53, 0x50]]

/-- The writer of `test_binary_codec`. -/
def codecWriter : BinaryWriter .bits64 := { limit := 128, limit_le := by decide }

/-- The reader of `test_binary_codec`, over the fourteen bytes it expects. -/
def codecReader : BinaryReader .bits64 where
  bytes := [0x12, 0x34, 0x89, 0xab, 0xcd, 0xef, 0, 0, 0, 4, 0x56, 0x4f, 0x53, 0x50]
  size_le := by decide

theorem writer_programs_read_back_codec :
    codecReader.machine.outs codecReader [.integer .w16, .integer .w32, .string uint32Max]
        = codecProgram.map .ok ∧
      (codecReader.machine.exec codecReader
        [.integer .w16, .integer .w32, .string uint32Max]).position = 14 :=
  ((writer_programs_read_back codecWriter rfl codecProgram).2.2 codecReader
    [.integer .w16, .integer .w32, .string uint32Max] rfl
    (.cons (.integer .w16 0x1234) (.cons (.integer .w32 0x89abcdef)
      (.cons (.string (by decide)) .nil)))).1 [] (by decide)

/-- **A reader is canonical and atomic on every input.**  Take any reader at the
start of its input, after any program.  It is inside the input, no further
request moves it back, and one that fails does not move it at all.  Writing the
data it returned with a writer that has room for them, in particular one that is
bounded only by `size_t`, succeeds throughout and gives the first `position()`
bytes of the input. -/
theorem reader_canonical_and_atomic {p q : Platform} (r : BinaryReader p) (hstart : r.position = 0)
    (requests : List Request) :
    (r.machine.exec r requests).bytes = r.bytes ∧
    (r.machine.exec r requests).position ≤ r.bytes.length ∧
    (∀ request : Request,
      (r.machine.exec r requests).position
        ≤ ((r.machine.exec r requests).perform request).2.position ∧
      ∀ e : Error, ((r.machine.exec r requests).perform request).1 = .error e →
        ((r.machine.exec r requests).perform request).2 = r.machine.exec r requests) ∧
    ∀ w : BinaryWriter q, w.bytes = [] → (r.machine.exec r requests).position ≤ w.limit →
      (∀ answer ∈ w.machine.outs w (BinaryReader.returned (r.machine.outs r requests)),
        answer = .ok ()) ∧
      (w.machine.exec w (BinaryReader.returned (r.machine.outs r requests))).bytes
        = r.bytes.take (r.machine.exec r requests).position := by
  have hr : r.Within := by
    rw [BinaryReader.Within, hstart]
    exact Nat.zero_le _
  obtain ⟨hbytes, hwithin, hall, hunread, hposition⟩ := hr.exec_spec r requests
  rw [hstart, Nat.zero_add] at hposition
  rw [BinaryReader.unread, hstart, List.drop_zero] at hunread
  refine ⟨hbytes, ?_, ?_, ?_⟩
  · rw [← hbytes]
    exact hwithin
  · intro request
    obtain ⟨d, -, -, hstep⟩ | ⟨e, hstep⟩ := hwithin.perform_cases request
    · rw [hstep]
      exact ⟨Nat.le_add_right _ _, by simp⟩
    · rw [hstep]
      exact ⟨le_rfl, fun _ _ => rfl⟩
  · intro w hempty hroom
    have hw : w.bytes.length ≤ w.limit := by
      rw [hempty]
      exact Nat.zero_le _
    have hfit : (encodings (BinaryReader.returned (r.machine.outs r requests))).length
        ≤ w.limit - w.bytes.length := by
      rw [hempty, ← hposition]
      exact hroom
    obtain ⟨houts, hexec⟩ := BinaryWriter.exec_of_fits w hw hall hfit
    refine ⟨houts, ?_⟩
    rw [hexec, hempty, List.nil_append, hposition]
    exact List.prefix_iff_eq_take.1 ⟨_, hunread.symm⟩

/-- The bounded string of `test_binary_codec`, refused at a maximum of one byte and
then read at two. -/
def boundedReader : BinaryReader .bits64 where
  bytes := [0, 0, 0, 2, 0x6f, 0x6b]
  size_le := by decide

theorem reader_canonical_and_atomic_bounded :
    (boundedReader.machine.exec boundedReader [.string 1, .string 2]).position = 6 ∧
      (codecWriter.machine.exec codecWriter (BinaryReader.returned
        (boundedReader.machine.outs boundedReader [.string 1, .string 2]))).bytes
        = boundedReader.bytes :=
  ⟨by decide, ((reader_canonical_and_atomic boundedReader rfl [.string 1, .string 2]).2.2.2
    codecWriter rfl (by decide)).2⟩

end Protocol
end Vosp
