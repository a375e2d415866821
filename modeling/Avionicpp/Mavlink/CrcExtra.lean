import Avionicpp.Foundations.Crc
import Avionicpp.Mavlink.Checksum
import Mathlib.Data.Fintype.Card
import Mathlib.Data.Fintype.Prod

/-! # CRC_EXTRA

`calculate_crc_extra` as it walks over a payload struct, beside the byte that MAVLink defines. The two
are the same for messages of scalars. An array is hashed under the name "unknown" and without its
length, so no list of field types with an array agrees for all names of its fields.
-/
namespace Avionicpp.Mavlink
open Foundations
set_option autoImplicit false

/-! ## The checksum is X.25 -/

/-- The polynomial of X.25, reflected. -/
def x25 : BitVec 16 := 0x8408#16

/-- What `crc_accumulate` adds for the byte `tmp`. -/
def lowByteTable (tmp : UInt8) : UInt16 :=
  let tmp := tmp ^^^ (tmp <<< 4)
  (tmp.toUInt16 <<< 8) ^^^ (tmp.toUInt16 <<< 3) ^^^ (tmp.toUInt16 >>> 4)

theorem shifts_low (tmp : UInt8) :
    (Crc.shift x25)^[8] (tmp.toBitVec.setWidth 16) = (lowByteTable tmp).toBitVec := by
  have h : ∀ n < 256, (Crc.shift x25)^[8] ((UInt8.ofNat n).toBitVec.setWidth 16) =
      (lowByteTable (UInt8.ofNat n)).toBitVec := by decide +kernel
  have htmp := h tmp.toNat tmp.toNat_lt
  rwa [UInt8.ofNat_toNat] at htmp

theorem shifts_byte (x : BitVec 16) :
    (Crc.shift x25)^[8] x = (x >>> 8) ^^^ (lowByteTable (UInt8.ofBitVec (x.setWidth 8))).toBitVec := by
  have hsplit : x = (x >>> 8) <<< 8 ^^^ (x.setWidth 8).setWidth 16 := by
    apply BitVec.eq_of_getLsbD_eq
    intro i hi
    simp only [BitVec.getLsbD_xor, BitVec.getLsbD_shiftLeft, BitVec.getLsbD_ushiftRight, BitVec.getLsbD_setWidth]
    by_cases h : i < 8 
    · simp [h, hi]
    · have : 8 + (i - 8) = i := by omega
      simp [h, hi, this]
  have hhigh : (Crc.shift x25)^[8] ((x >>> 8) <<< 8) = x >>> 8 := by
    rw [Crc.shifts_high]
    · apply BitVec.eq_of_getLsbD_eq
      intro i hi
      by_cases h : 8 + i < 16
      · simp [h]
      · simp [BitVec.getLsbD_of_ge x (8 + i) (by omega)]
    · intro i hi
      simp [hi]
  conv_lhs => rw [hsplit]
  rw [Crc.shifts_xor, hhigh]
  exact congrArg ((x >>> 8) ^^^ ·) (shifts_low (UInt8.ofBitVec (x.setWidth 8)))

theorem toUInt8_mask (crc : UInt16) : (crc &&& 0xff).toUInt8 = crc.toUInt8 := by
  apply UInt8.toBitVec_inj.mp
  show (crc.toBitVec &&& 0xff#16).setWidth 8 = crc.toBitVec.setWidth 8
  apply BitVec.eq_of_getLsbD_eq
  intro i hi
  have hmask : ∀ i < 8, (0xff#16).getLsbD i = true := by decide
  rw [BitVec.getLsbD_setWidth, BitVec.getLsbD_and, hmask i hi, Bool.and_true,
    BitVec.getLsbD_setWidth]

theorem crcAccumulate_x25 (data : UInt8) (crc : UInt16) :
    (crcAccumulate data crc).toBitVec = Crc.update x25 crc.toBitVec data := by
  have hcode : crcAccumulate data crc = (crc >>> 8) ^^^ lowByteTable (data ^^^ crc.toUInt8) := by
    rw [crcAccumulate, toUInt8_mask, lowByteTable, UInt16.xor_assoc, UInt16.xor_assoc, UInt16.xor_assoc]
  have hhigh : (crc.toBitVec ^^^ data.toBitVec.setWidth 16) >>> 8 = crc.toBitVec >>> 8 := by
    apply BitVec.eq_of_getLsbD_eq
    intro i _
    simp
  have hbyte : UInt8.ofBitVec ((crc.toBitVec ^^^ data.toBitVec.setWidth 16).setWidth 8) =
      data ^^^ crc.toUInt8 := by
    apply UInt8.toBitVec_inj.mp
    show (crc.toBitVec ^^^ data.toBitVec.setWidth 16).setWidth 8 =
      data.toBitVec ^^^ crc.toBitVec.setWidth 8
    rw [BitVec.setWidth_xor, BitVec.xor_comm, BitVec.setWidth_setWidth_of_le data.toBitVec (by omega),
      BitVec.setWidth_eq]
  rw [hcode, Crc.update, shifts_byte, hhigh, hbyte]
  rfl

theorem crcAccumulateBuffer_x25 (crc : UInt16) (buffer : List UInt8) :
    (crcAccumulateBuffer crc buffer).toBitVec = Crc.remainder x25 crc.toBitVec buffer := by
  induction buffer generalizing crc with
  | nil => rfl
  | cons data buffer ih =>
    show (crcAccumulateBuffer (crcAccumulate data crc) buffer).toBitVec =
      Crc.remainder x25 (Crc.update x25 crc.toBitVec data) buffer
    rw [ih, crcAccumulate_x25]

/-! ## What the code computes -/

/-- The declared type of a member of a payload struct. -/
inductive MemberType where
  | plain (t : FieldType)
  | txField (t : FieldType)
  | rxField (t : FieldType)
  deriving DecidableEq, Repr

def unwrapField : MemberType → FieldType
  | .plain t | .txField t | .rxField t => t

/-- What reflection sees of a payload struct: its members in declaration order. -/
structure MessageStruct where
  messageName : String
  members : List (MemberType × String)

def MessageStruct.calculateCrcExtra (m : MessageStruct) : UInt8 :=
  let crc := crcAccumulate (ascii ' ') (crcAccumulateString 0xFFFF m.messageName)
  let crc : UInt16 := m.members.foldl (fun crc member =>
    let typeStr := typeString (unwrapField member.1)
    let nameStr := member.2
    let crc := crcAccumulate (ascii ' ') (crcAccumulateString crc typeStr)
    crcAccumulate (ascii ' ') (crcAccumulateString crc nameStr)) crc
  (crc &&& 0xFF).toUInt8 ^^^ (crc >>> 8).toUInt8

/-- The payload over traits that wrap every field in the same way. -/
def MessageT.over (wrap : FieldType → MemberType) (m : MessageT) : MessageStruct where
  messageName := m.messageName
  members := m.fields.map fun f => (wrap f.type, f.name)

/-! ## What MAVLink defines -/

def Prim.name : Prim → String
  | .uint8 => "uint8_t"
  | .int8 => "int8_t"
  | .uint16 => "uint16_t"
  | .int16 => "int16_t"
  | .uint32 => "uint32_t"
  | .int32 => "int32_t"
  | .uint64 => "uint64_t"
  | .int64 => "int64_t"
  | .float => "float"
  | .double => "double"
  | .char => "char"

def FieldType.IsArray : FieldType → Prop
  | .scalar _ => False
  | .array _ _ => True

def typeAndName (typeName name : String) : List UInt8 :=
  asciiText typeName ++ [ascii ' '] ++ (asciiText name ++ [ascii ' '])

/-- The bytes of a field: the type of its elements, its name, and the length of an array. -/
def definedBytes (type : FieldType) (name : String) : List UInt8 :=
  match type with
  | .scalar t => typeAndName t.name name
  | .array t n => typeAndName t.name name ++ [UInt8.ofNat n]

/-- Low byte and high byte together. -/
def foldByte (crc : BitVec 16) : BitVec 8 := crc.setWidth 8 ^^^ (crc >>> 8).setWidth 8

def definedCrcExtra (m : MessageStruct) : UInt8 :=
  UInt8.ofBitVec (foldByte (Crc.remainder x25 0xFFFF#16
    (asciiText m.messageName ++ [ascii ' '] ++
      m.members.flatMap fun member => definedBytes (unwrapField member.1) member.2)))

/-! ## The bytes that are hashed -/

def hashedBytes (type : FieldType) (name : String) : List UInt8 := typeAndName (typeString type) name

theorem hashedBytes_scalar {type : FieldType} (h : ¬ type.IsArray) (name : String) :
    hashedBytes type name = definedBytes type name := by
  cases type with
  | scalar t => cases t <;> rfl
  | array t n => exact absurd trivial h

theorem toUInt8_toBitVec (crc : UInt16) :
    ((crc &&& 0xFF).toUInt8 ^^^ (crc >>> 8).toUInt8).toBitVec = foldByte crc.toBitVec := by
  rw [toUInt8_mask]
  rfl

theorem accumulate_typeAndName (crc : UInt16) (typeName name : String) :
    crcAccumulate (ascii ' ') (crcAccumulateString
      (crcAccumulate (ascii ' ') (crcAccumulateString crc typeName)) name) =
      crcAccumulateBuffer crc (typeAndName typeName name) := by
  simp only [typeAndName, crcAccumulateString, crcAccumulateBuffer, List.foldl_append,
    List.foldl_cons, List.foldl_nil]

theorem accumulate_members (crc : UInt16) (members : List (MemberType × String)) :
    members.foldl (fun crc member =>
      crcAccumulate (ascii ' ') (crcAccumulateString (crcAccumulate (ascii ' ')
        (crcAccumulateString crc (typeString (unwrapField member.1)))) member.2)) crc =
      crcAccumulateBuffer crc
        (members.flatMap fun member => hashedBytes (unwrapField member.1) member.2) := by
  induction members generalizing crc with
  | nil => rfl
  | cons member members ih =>
    rw [List.foldl_cons, ih, accumulate_typeAndName, List.flatMap_cons, crcAccumulateBuffer,
      crcAccumulateBuffer, crcAccumulateBuffer, List.foldl_append]
    rfl

/-- **What the code hashes.** -/
theorem calculateCrcExtra_eq (m : MessageStruct) :
    m.calculateCrcExtra = UInt8.ofBitVec (foldByte (Crc.remainder x25 0xFFFF#16
      (asciiText m.messageName ++ [ascii ' '] ++
        m.members.flatMap fun member => hashedBytes (unwrapField member.1) member.2))) := by
  have hname : crcAccumulate (ascii ' ') (crcAccumulateString 0xFFFF m.messageName) =
      crcAccumulateBuffer 0xFFFF (asciiText m.messageName ++ [ascii ' ']) := by
    simp only [crcAccumulateString, crcAccumulateBuffer, List.foldl_append, List.foldl_cons,
      List.foldl_nil]
  apply UInt8.toBitVec_inj.mp
  rw [MessageStruct.calculateCrcExtra, toUInt8_toBitVec, accumulate_members, hname,
    crcAccumulateBuffer_x25, crcAccumulateBuffer_x25, ← Crc.remainder_append]
  rfl

/-- The wrappers of the fields do not matter. -/
theorem calculateCrcExtra_over {wrap : FieldType → MemberType} (hwrap : ∀ t, unwrapField (wrap t) = t)
    (m : MessageT) : (m.over wrap).calculateCrcExtra = calculateCrcExtra m := by
  simp only [MessageStruct.calculateCrcExtra, calculateCrcExtra, MessageT.over, List.foldl_map, hwrap]

theorem calculateCrcExtra_scalars (m : MessageStruct)
    (h : ∀ member ∈ m.members, ¬ (unwrapField member.1).IsArray) :
    m.calculateCrcExtra = definedCrcExtra m := by
  have hbytes : (m.members.flatMap fun member => hashedBytes (unwrapField member.1) member.2) =
      m.members.flatMap fun member => definedBytes (unwrapField member.1) member.2 :=
    List.flatMap_congr fun member hmember => hashedBytes_scalar (h member hmember) member.2
  rw [calculateCrcExtra_eq, hbytes]
  rfl

/-! ## Arrays -/

theorem foldByte_xor (c d : BitVec 16) : foldByte (c ^^^ d) = foldByte c ^^^ foldByte d := by
  unfold foldByte
  rw [BitVec.setWidth_xor, BitVec.ushiftRight_xor_distrib, BitVec.setWidth_xor,
    Crc.xor_xor_xor_comm]

/-- What folds to zero is known from its low byte. -/
theorem eq_of_foldByte {c d : BitVec 16} (hc : foldByte c = 0#8) (hd : foldByte d = 0#8)
    (hlow : c.setWidth 8 = d.setWidth 8) : c = d := by
  have hhigh : (c >>> 8).setWidth 8 = (d >>> 8).setWidth 8 := by
    rw [foldByte, BitVec.xor_eq_zero_iff] at hc hd
    rw [← hc, ← hd, hlow]
  apply BitVec.eq_of_getLsbD_eq
  intro i hi
  by_cases h : i < 8
  · have hbit := congrArg (fun b => b.getLsbD i) hlow
    simpa [h] using hbit
  · have hbit := congrArg (fun b => b.getLsbD (i - 8)) hhigh
    have hlt : i - 8 < 8 := by omega
    have heq : 8 + (i - 8) = i := by omega
    simpa [hlt, heq] using hbit

/-- The names of three of the letters p to w. -/
def letter (a : Fin 8) : UInt8 := UInt8.ofNat (112 + a)

def nameOf (w : Fin 8 × Fin 8 × Fin 8) : String :=
  String.ofList [Char.ofNat (112 + w.1), Char.ofNat (112 + w.2.1), Char.ofNat (112 + w.2.2)]

theorem asciiText_nameOf (w : Fin 8 × Fin 8 × Fin 8) :
    asciiText (nameOf w) = [letter w.1, letter w.2.1, letter w.2.2] := by
  have hletter : ∀ a : Fin 8, ascii (Char.ofNat (112 + a)) = letter a := by decide
  simp [asciiText, nameOf, hletter]

/-- The names are told apart even by the difference between hashing a byte more and a byte less. -/
theorem names_apart (v w : Fin 8 × Fin 8 × Fin 8)
    (h : Crc.remainder x25 0#16 (Crc.xorBytes (asciiText (nameOf v)) (asciiText (nameOf w))) ^^^
      (Crc.shift x25)^[8]
        (Crc.remainder x25 0#16 (Crc.xorBytes (asciiText (nameOf v)) (asciiText (nameOf w)))) = 0#16) :
    v = w := by
  have hletters : ∀ a b : Fin 8, ∃ d : Fin 8, letter a ^^^ letter b = UInt8.ofNat d ∧
      (d = 0 → a = b) := by decide
  have hzero : ∀ d e f : Fin 8,
      Crc.remainder x25 0#16 [UInt8.ofNat d, UInt8.ofNat e, UInt8.ofNat f] ^^^ (Crc.shift x25)^[8]
        (Crc.remainder x25 0#16 [UInt8.ofNat d, UInt8.ofNat e, UInt8.ofNat f]) = 0#16 →
      d = 0 ∧ e = 0 ∧ f = 0 := by decide +kernel
  obtain ⟨v1, v2, v3⟩ := v
  obtain ⟨w1, w2, w3⟩ := w
  obtain ⟨d, hd, hdeq⟩ := hletters v1 w1
  obtain ⟨e, he, heeq⟩ := hletters v2 w2
  obtain ⟨f, hf, hfeq⟩ := hletters v3 w3
  have hxor : Crc.xorBytes (asciiText (nameOf (v1, v2, v3))) (asciiText (nameOf (w1, w2, w3))) =
      [UInt8.ofNat d, UInt8.ofNat e, UInt8.ofNat f] := by
    rw [asciiText_nameOf, asciiText_nameOf, ← hd, ← he, ← hf]
    rfl
  rw [hxor] at h
  obtain ⟨hd0, he0, hf0⟩ := hzero d e f h
  rw [hdeq hd0, heeq he0, hfeq hf0]

/-- The remainders of two strings with the name `w` in them, of which the second has one byte more
behind it. -/
def gap (c d : BitVec 16) (n : UInt8) (rest : List UInt8) (w : Fin 8 × Fin 8 × Fin 8) : BitVec 16 :=
  Crc.remainder x25 c (asciiText (nameOf w) ++ ascii ' ' :: rest) ^^^
    Crc.remainder x25 d (asciiText (nameOf w) ++ ascii ' ' :: n :: rest)

theorem gap_injective (c d : BitVec 16) (n : UInt8) (rest : List UInt8)
    (v w : Fin 8 × Fin 8 × Fin 8) (h : gap c d n rest v = gap c d n rest w) : v = w := by
  have hlen : (asciiText (nameOf v)).length = (asciiText (nameOf w)).length := by
    rw [asciiText_nameOf, asciiText_nameOf]
    rfl
  -- the strings from one remainder differ by the run over the names' difference, moved on
  have hmoved : ∀ (e : BitVec 16) (tail : List UInt8),
      Crc.remainder x25 e (asciiText (nameOf v) ++ tail) ^^^
        Crc.remainder x25 e (asciiText (nameOf w) ++ tail) =
      (Crc.shift x25)^[8 * tail.length]
        (Crc.remainder x25 0#16 (Crc.xorBytes (asciiText (nameOf v)) (asciiText (nameOf w)))) := by
    intro e tail
    rw [Crc.remainder_append, Crc.remainder_append, Crc.remainder_difference,
      ← Crc.remainder_xor x25 e e _ _ hlen, BitVec.xor_self]
  have hzero := BitVec.xor_eq_zero_iff.mpr h
  rw [gap, gap, Crc.xor_xor_xor_comm, hmoved, hmoved] at hzero
  have hlonger : 8 * (ascii ' ' :: n :: rest).length = 8 * (ascii ' ' :: rest).length + 8 := by
    simp only [List.length_cons]
    omega
  rw [hlonger, Function.iterate_add_apply, ← Crc.shifts_xor] at hzero
  exact names_apart v w (Crc.shifts_eq_zero x25 (by omega) (by decide) _ hzero)

/-- Not all the gaps fold to zero: there are more names than low bytes. -/
theorem exists_gap (c d : BitVec 16) (n : UInt8) (rest : List UInt8) :
    ∃ w, foldByte (gap c d n rest w) ≠ 0#8 := by
  by_contra hall
  have hzero : ∀ w, foldByte (gap c d n rest w) = 0#8 := by
    intro w
    by_contra hw
    exact hall ⟨w, hw⟩
  have hinj : Function.Injective fun w => ((gap c d n rest w).setWidth 8).toFin := by
    intro v w hvw
    have hlow : (gap c d n rest v).setWidth 8 = (gap c d n rest w).setWidth 8 :=
      BitVec.toFin_inj.mp hvw
    exact gap_injective c d n rest v w (eq_of_foldByte (hzero v) (hzero w) hlow)
  have hcard := Fintype.card_le_of_injective _ hinj
  simp at hcard

/-- The remainder in front of the name of a field. -/
def before (bytes : FieldType → String → List UInt8) (messageName : String)
    (earlier : List (MemberType × String)) (typeName : String) : BitVec 16 :=
  Crc.remainder x25 0xFFFF#16 (asciiText messageName ++ [ascii ' '] ++
    (earlier.flatMap (fun member => bytes (unwrapField member.1) member.2) ++
      (asciiText typeName ++ [ascii ' '])))

theorem remainder_named (bytes : FieldType → String → List UInt8) (messageName : String)
    (earlier later : List (MemberType × String)) (type : MemberType) (name typeName : String)
    (suffix : List UInt8)
    (h : bytes (unwrapField type) name = typeAndName typeName name ++ suffix) :
    Crc.remainder x25 0xFFFF#16 (asciiText messageName ++ [ascii ' '] ++
      (earlier ++ (type, name) :: later).flatMap fun member =>
        bytes (unwrapField member.1) member.2) =
    Crc.remainder x25 (before bytes messageName earlier typeName) (asciiText name ++
      ascii ' ' :: (suffix ++ later.flatMap fun member =>
        bytes (unwrapField member.1) member.2)) := by
  rw [before, ← Crc.remainder_append]
  congr 1
  simp only [List.flatMap_append, List.flatMap_cons, h, typeAndName, List.append_assoc,
    List.cons_append, List.nil_append]

/-- **An array breaks the checksum**: whatever the other names are, a name of the last array can be
chosen so that the code's byte is not the defined one. -/
theorem array_differs (messageName : String) (earlier later : List (MemberType × String))
    (type : MemberType) (harray : (unwrapField type).IsArray)
    (hlater : ∀ member ∈ later, ¬ (unwrapField member.1).IsArray) :
    ∃ name, MessageStruct.calculateCrcExtra ⟨messageName, earlier ++ (type, name) :: later⟩ ≠
      definedCrcExtra ⟨messageName, earlier ++ (type, name) :: later⟩ := by
  cases hunwrap : unwrapField type with
  | scalar t =>
    rw [hunwrap] at harray
    exact absurd harray id
  | array t n =>
    have hrest : (later.flatMap fun member => hashedBytes (unwrapField member.1) member.2) =
        later.flatMap fun member => definedBytes (unwrapField member.1) member.2 :=
      List.flatMap_congr fun member hmember => hashedBytes_scalar (hlater member hmember) member.2
    obtain ⟨w, hw⟩ := exists_gap (before hashedBytes messageName earlier "unknown")
      (before definedBytes messageName earlier t.name) (UInt8.ofNat n)
      (later.flatMap fun member => definedBytes (unwrapField member.1) member.2)
    refine ⟨nameOf w, fun heq => hw ?_⟩
    have hcode := remainder_named hashedBytes messageName earlier later type (nameOf w) "unknown" []
      (by rw [hunwrap, List.append_nil]; rfl)
    have hdefined := remainder_named definedBytes messageName earlier later type (nameOf w) t.name
      [UInt8.ofNat n] (by rw [hunwrap]; rfl)
    have hfold := congrArg UInt8.toBitVec heq
    rw [calculateCrcExtra_eq, definedCrcExtra] at hfold
    dsimp only at hfold
    rw [hcode, hdefined, hrest] at hfold
    rw [gap, foldByte_xor, BitVec.xor_eq_zero_iff]
    exact hfold

theorem exists_last_array (types : List MemberType) (h : ∃ type ∈ types, (unwrapField type).IsArray) :
    ∃ earlier type later, types = earlier ++ type :: later ∧ (unwrapField type).IsArray ∧
      ∀ type ∈ later, ¬ (unwrapField type).IsArray := by
  induction types with
  | nil =>
    obtain ⟨type, hmem, -⟩ := h
    exact absurd hmem List.not_mem_nil
  | cons t types ih =>
    by_cases htail : ∃ type ∈ types, (unwrapField type).IsArray
    · obtain ⟨earlier, type, later, rfl, harray, hlater⟩ := ih htail
      exact ⟨t :: earlier, type, later, rfl, harray, hlater⟩
    · obtain ⟨type, hmem, harray⟩ := h
      refine ⟨[], t, types, rfl, ?_, fun type hmem harray => htail ⟨type, hmem, harray⟩⟩
      obtain rfl | hmem := List.mem_cons.mp hmem
      · exact harray
      · exact absurd ⟨type, hmem, harray⟩ htail

/-- **CRC_EXTRA**: a message name and a list of field types give the defined byte for all names of the
fields if and only if no field is an array. Sender and receiver always agree. -/
theorem crc_extra_defined_iff (messageName : String) (types : List MemberType) :
    ((∀ m : MessageStruct, m.messageName = messageName → m.members.map Prod.fst = types →
        m.calculateCrcExtra = definedCrcExtra m) ↔
      ∀ type ∈ types, ¬ (unwrapField type).IsArray) ∧
    ∀ m : MessageT, (m.over .txField).calculateCrcExtra = (m.over .rxField).calculateCrcExtra := by
  refine ⟨⟨fun hall => ?_, fun hscalar => ?_⟩, fun m => ?_⟩
  · by_contra hnot
    have harray : ∃ type ∈ types, (unwrapField type).IsArray := by
      simpa using hnot
    obtain ⟨earlier, type, later, rfl, harray, hlater⟩ := exists_last_array types harray
    have hunnamed : ∀ ts : List MemberType, (ts.map fun t => (t, "")).map Prod.fst = ts := by
      intro ts
      rw [List.map_map]
      exact List.map_id ts
    obtain ⟨name, hname⟩ := array_differs messageName (earlier.map fun t => (t, ""))
      (later.map fun t => (t, "")) type harray (by simpa using hlater)
    apply hname
    apply hall _ rfl
    rw [List.map_append, List.map_cons, hunnamed, hunnamed]
  · rintro m - rfl
    apply calculateCrcExtra_scalars
    intro member hmember
    exact hscalar member.1 (List.mem_map_of_mem hmember)
  · rw [calculateCrcExtra_over (fun _ => rfl), calculateCrcExtra_over (fun _ => rfl)]

/-- The byte of `AUTH_KEY`, whose field is a `char[32]`, is 15 where MAVLink has 119. -/
theorem auth_key_crc_extra :
    MessageStruct.calculateCrcExtra ⟨"AUTH_KEY", [(.txField (.array .char 32), "key")]⟩ = 15 ∧
      definedCrcExtra ⟨"AUTH_KEY", [(.txField (.array .char 32), "key")]⟩ = 119 := by
  decide +kernel

end Avionicpp.Mavlink
