import Avionicpp.Mavlink.FrameMachine

/-! # The framer refines the frame machine

While a frame is read, every variable of the coroutine is a function of the bytes of the frame so far
(`stateOf`), and these bytes are what the buffer holds from its start on. The flags that decide about
the signature are read from the buffer; that they are the frame's is what the second half of the
relation is for.
-/
namespace Avionicpp.Mavlink
open Foundations Coroutine
set_option autoImplicit false

/-! ## The relation -/

def headerSite (magic : UInt8) (k : ℕ) : Site :=
  match if magic = 0xFD then k else if k = 1 then 1 else k + 2 with
  | 1 => .len
  | 2 => .incFlags
  | 3 => .cmpFlags
  | 4 => .seq
  | 5 => .sys
  | 6 => .comp
  | 7 => .msgid
  | 8 => .idMid
  | _ => .idHi

def siteOf (f : List UInt8) : Site :=
  if f.length < headerLength f then headerSite (magic f) f.length
  else if f.length < headerLength f + (lenByte f).toNat then .payload
  else if f.length = headerLength f + (lenByte f).toNat then .crc1
  else if f.length = headerLength f + (lenByte f).toNat + 1 then .crc2
  else .signature

/-- The turns that the running loop has made. -/
def turns (f : List UInt8) : ℕ :=
  if f.length < headerLength f + (lenByte f).toNat then f.length - headerLength f
  else f.length - (headerLength f + (lenByte f).toNat + 2)

def stateOf (buffer : Region UInt8) (f : List UInt8) : State where
  site := siteOf f
  buffer := buffer
  view := headerView f
  magic := magic f
  idx := f.length
  len := lenByte f
  i := turns f

/-- The start of a frame that is not complete. -/
structure Unfinished (f : List UInt8) : Prop where
  stx : IsStx (magic f)
  pos : 0 < f.length
  short : f.length < frameLength f

structure Idles (s : State) : Prop where
  site : s.site = .stx
  view : s.view = .empty
  idx : s.idx = 0
  len : s.len = 0
  i : s.i = 0

def Tracks (N : ℕ) (s : State) (ph : Phase) : Prop :=
  s.buffer.size = N ∧
    match ph with
    | .idle => Idles s
    | .frame f => Unfinished f ∧ s = stateOf s.buffer f ∧ s.buffer.read 0 f.length = f

/-- A result with its view read over the buffer of the state it was given with. -/
def readOver (s : State) (o : Option ParseResult) : Option (Except ErrorType FrameView) :=
  o.map fun r => r.map fun view => view.read s.buffer

def Follows (N : ℕ) (code : Code State ParseResult)
    (r : Phase × Option (Except ErrorType FrameView)) : Prop :=
  Tracks N code.settle.1 r.1 ∧ readOver code.settle.1 code.settle.2 = r.2

theorem nextMessage_idles (s : State) : Idles (nextMessage s).settle.1 := ⟨rfl, rfl, rfl, rfl, rfl⟩

/-! ## The header -/

theorem id_low (c : UInt8) :
    c.toUInt32 &&& 0xFF = UInt32.ofNat (ofBytes [c]) ∧ (UInt32.ofNat (ofBytes [c])).toUInt8 = c := by
  have hbyte : UInt32.ofNat (ofBytes [c]) = c.toUInt32 := by
    apply UInt32.toNat_inj.mp
    simp [ofBytes]
  have hand : c.toUInt32 &&& 0xFF = c.toUInt32 := by
    apply UInt32.toNat_inj.mp
    rw [UInt32.toNat_and, UInt8.toNat_toUInt32]
    exact (Nat.and_two_pow_sub_one_eq_mod c.toNat 8).trans (Nat.mod_eq_of_lt c.toNat_lt)
  rw [hbyte]
  exact ⟨hand, UInt8.toUInt8_toUInt32 c⟩

theorem id_or (bs : List UInt8) (c : UInt8) (shift : UInt32) (hshift : shift.toNat = 8 * bs.length)
    (hbs : bs.length < 4) :
    UInt32.ofNat (ofBytes bs) ||| (c.toUInt32 <<< shift) = UInt32.ofNat (ofBytes (bs ++ [c])) := by
  have hlow : ofBytes bs < 2 ^ (8 * bs.length) := by
    rw [Nat.pow_mul]
    exact ofBytes_lt bs
  have hsum : ofBytes (bs ++ [c]) = c.toNat <<< (8 * bs.length) ||| ofBytes bs := by
    rw [ofBytes_append, ← Nat.shiftLeft_add_eq_or_of_lt hlow, Nat.shiftLeft_eq, Nat.pow_mul]
    simp only [ofBytes]
    ring
  have hmod : (8 * bs.length) % 32 = 8 * bs.length := Nat.mod_eq_of_lt (by omega)
  apply UInt32.toNat_inj.mp
  rw [UInt32.toNat_or, UInt32.toNat_shiftLeft, UInt32.toNat_ofNat', UInt32.toNat_ofNat', hsum,
    UInt8.toNat_toUInt32, hshift, hmod, Nat.or_comm, Nat.or_mod_two_pow]

theorem turns_header {f : List UInt8} (h : f.length ≤ headerLength f) : turns f = 0 := by
  unfold turns
  split <;> omega

def headerState (buffer : Region UInt8) (f : List UInt8) : State where
  site := headerSite (magic f) f.length
  buffer := buffer
  view := headerView f
  magic := magic f
  idx := f.length
  len := lenByte f
  i := 0

theorem stateOf_header (buffer : Region UInt8) {f : List UInt8} (h : f.length < headerLength f) :
    stateOf buffer f = headerState buffer f := by
  have hsite : siteOf f = headerSite (magic f) f.length := if_pos h
  simp only [stateOf, headerState, hsite, turns_header (Nat.le_of_lt h)]

/-- The header is complete, and the payload loop may have no turn to make. -/
theorem startPayload_eq (buffer : Region UInt8) (f : List UInt8) (h : f.length = headerLength f)
    (s : State) (hs : s = { headerState buffer f with
      site := s.site, view := { headerView f with payload := s.view.payload } }) :
    startPayload s = .coAwait (stateOf buffer f) := by
  have hspan : headerView f = { headerView f with payload := ⟨f.length, (lenByte f).toNat⟩ } := by
    unfold headerView
    rw [if_pos (Nat.le_of_eq h.symm), h]
    split <;> rfl
  have hturns := turns_header (Nat.le_of_eq h)
  rw [hs]
  unfold startPayload payloadLoop
  by_cases hlen : 0 < (lenByte f).toNat
  · have hsite : siteOf f = .payload := by
      unfold siteOf
      rw [if_neg (by omega), if_pos (by omega)]
    simp only [headerState, hlen, if_true, stateOf, hsite, hturns, ← hspan]
  · have hsite : siteOf f = .crc1 := by
      unfold siteOf
      rw [if_neg (by omega), if_neg (by omega), if_pos (by omega)]
    simp only [headerState, hlen, if_false, stateOf, hsite, hturns, ← hspan]

/-- The first byte of a version 2 message id. -/
theorem header_msgid (buffer : Region UInt8) (a b d e g h c : UInt8) :
    resumeWith (headerState buffer [0xFD, a, b, d, e, g, h]) c =
      .coAwait (headerState (buffer.store 7 c) [0xFD, a, b, d, e, g, h, c]) := by
  obtain ⟨hid, hlow⟩ := id_low c
  simp [resumeWith, headerState, headerSite, magic, put, hid, hlow, headerView, headerLength, lenByte]

/-- The second one. -/
theorem header_idMid (buffer : Region UInt8) (a b d e g h k c : UInt8) :
    resumeWith (headerState buffer [0xFD, a, b, d, e, g, h, k]) c =
      .coAwait (headerState (buffer.store 8 c) [0xFD, a, b, d, e, g, h, k, c]) := by
  have hmid := id_or [k] c 8 rfl (Nat.one_lt_succ_succ 2)
  simpa [resumeWith, headerState, headerSite, magic, put, headerView, headerLength, lenByte]
    using hmid

/-- The third one, the last byte of the header. -/
theorem header_idHi (buffer : Region UInt8) (a b d e g h k l c : UInt8) :
    resumeWith (headerState buffer [0xFD, a, b, d, e, g, h, k, l]) c =
      .coAwait (stateOf (buffer.store 9 c) [0xFD, a, b, d, e, g, h, k, l, c]) := by
  have hhi := id_or [k, l] c 16 rfl (by simp)
  apply startPayload_eq _ _ rfl
  simpa [headerState, headerSite, magic, put, headerView, headerLength, lenByte] using hhi

/-- The message id of version 1, the last byte of its header. -/
theorem header_id (buffer : Region UInt8) (a b d e c : UInt8) :
    resumeWith (headerState buffer [0xFE, a, b, d, e]) c =
      .coAwait (stateOf (buffer.store 5 c) [0xFE, a, b, d, e, c]) := by
  obtain ⟨hid, hlow⟩ := id_low c
  show startPayload (put { headerState buffer [0xFE, a, b, d, e] with
    view := { headerView [0xFE, a, b, d, e] with msgid := c.toUInt32 &&& 0xFF } }
    (c.toUInt32 &&& 0xFF).toUInt8) = _
  rw [hid, hlow]
  apply startPayload_eq _ _ rfl
  simp [headerState, headerSite, magic, put, headerView, headerLength, lenByte]

theorem header_step (buffer : Region UInt8) (f : List UInt8) (c : UInt8) (hstx : IsStx (magic f))
    (hpos : 0 < f.length) (hlt : f.length + 1 < headerLength f) :
    resumeWith (stateOf buffer f) c = .coAwait (stateOf (buffer.store f.length c) (f ++ [c])) := by
  have happ : (f ++ [c]).length < headerLength (f ++ [c]) := by
    rw [headerLength_append [c] hpos, List.length_append]
    exact hlt
  rw [stateOf_header buffer (by omega), stateOf_header _ happ]
  obtain ⟨m, g, rfl⟩ := List.exists_cons_of_length_pos hpos
  obtain rfl | rfl := hstx
  · have h10 : (0xFD :: g).length + 1 < 10 := hlt
    match g, h10 with
    | [], _ => rfl
    | [_], _ => rfl
    | [_, _], _ => rfl
    | [_, _, _], _ => rfl
    | [_, _, _, _], _ => rfl
    | [_, _, _, _, _], _ => rfl
    | [_, _, _, _, _, _], _ => exact header_msgid ..
    | [_, _, _, _, _, _, _], _ => exact header_idMid ..
  · have h6 : (0xFE :: g).length + 1 < 6 := hlt
    match g, h6 with
    | [], _ => rfl
    | [_], _ => rfl
    | [_, _], _ => rfl
    | [_, _, _], _ => rfl

theorem header_last (buffer : Region UInt8) (f : List UInt8) (c : UInt8) (hstx : IsStx (magic f))
    (hpos : 0 < f.length) (hlast : f.length + 1 = headerLength f) :
    resumeWith (stateOf buffer f) c = .coAwait (stateOf (buffer.store f.length c) (f ++ [c])) := by
  rw [stateOf_header buffer (by omega)]
  obtain ⟨m, g, rfl⟩ := List.exists_cons_of_length_pos hpos
  obtain rfl | rfl := hstx
  · have h10 : g.length + 2 = 10 := hlast
    match g, h10 with
    | [_, _, _, _, _, _, _, _], _ => exact header_idHi ..
  · have h6 : g.length + 2 = 6 := hlast
    match g, h6 with
    | [_, _, _, _], _ => exact header_id ..

/-! ## Behind the header -/

theorem stateOf_append (buffer : Region UInt8) {f : List UInt8} (c : UInt8)
    (h : headerLength f ≤ f.length) :
    stateOf buffer (f ++ [c]) = { stateOf buffer f with
      site := siteOf (f ++ [c]), idx := f.length + 1, i := turns (f ++ [c]) } := by
  have hheader := headerLength_cases f
  simp only [stateOf, headerView_append [c] h, magic_append [c] (show 0 < f.length by omega),
    lenByte_append [c] (show 1 < f.length by omega), List.length_append, List.length_singleton]

theorem siteOf_append {f : List UInt8} (c : UInt8) (h : headerLength f ≤ f.length) :
    siteOf (f ++ [c]) =
      if f.length + 1 < headerLength f + (lenByte f).toNat then .payload
      else if f.length + 1 = headerLength f + (lenByte f).toNat then .crc1
      else if f.length + 1 = headerLength f + (lenByte f).toNat + 1 then .crc2
      else .signature := by
  have hheader := headerLength_cases f
  unfold siteOf
  rw [headerLength_append [c] (show 0 < f.length by omega),
    lenByte_append [c] (show 1 < f.length by omega), List.length_append, List.length_singleton,
    if_neg (by omega)]

theorem turns_append {f : List UInt8} (c : UInt8) (h : headerLength f ≤ f.length) :
    turns (f ++ [c]) =
      if f.length + 1 < headerLength f + (lenByte f).toNat then f.length + 1 - headerLength f
      else f.length + 1 - (headerLength f + (lenByte f).toNat + 2) := by
  have hheader := headerLength_cases f
  unfold turns
  rw [headerLength_append [c] (show 0 < f.length by omega),
    lenByte_append [c] (show 1 < f.length by omega), List.length_append, List.length_singleton]

theorem payload_step (buffer : Region UInt8) (f : List UInt8) (c : UInt8)
    (h : headerLength f ≤ f.length) (hlt : f.length < headerLength f + (lenByte f).toNat)
    (hroom : f.length < buffer.size) :
    resumeWith (stateOf buffer f) c = .coAwait (stateOf (buffer.store f.length c) (f ++ [c])) := by
  have hsite : siteOf f = .payload := by
    unfold siteOf
    rw [if_neg (by omega), if_pos hlt]
  have hturns : turns f = f.length - headerLength f := if_pos hlt
  have hcode : resumeWith (stateOf buffer f) c =
      payloadLoop { put (stateOf buffer f) c with i := turns f + 1 } := by
    simp only [resumeWith, stateOf, hsite, if_neg (Nat.not_le.mpr hroom)]
  rw [hcode, stateOf_append _ c h, siteOf_append c h, turns_append c h]
  unfold payloadLoop
  by_cases hmore : f.length + 1 < headerLength f + (lenByte f).toNat
  · have hi : turns f + 1 < (lenByte f).toNat := by omega
    have hnext : f.length + 1 - headerLength f = turns f + 1 := by omega
    simp only [stateOf, put, hi, hmore, if_true, hnext]
  · have hi : ¬ turns f + 1 < (lenByte f).toNat := by omega
    have hend : f.length + 1 = headerLength f + (lenByte f).toNat := by omega
    have hzero : f.length + 1 - (headerLength f + (lenByte f).toNat + 2) = 0 := by omega
    simp only [stateOf, put, hi, hmore, if_false, hzero]
    rw [if_pos hend]

theorem crc1_step (buffer : Region UInt8) (f : List UInt8) (c : UInt8)
    (hat : f.length = headerLength f + (lenByte f).toNat) :
    resumeWith (stateOf buffer f) c = .coAwait (stateOf (buffer.store f.length c) (f ++ [c])) := by
  have hsite : siteOf f = .crc1 := by
    unfold siteOf
    rw [if_neg (by omega), if_neg (by omega), if_pos hat]
  have hturns : turns f = 0 := by
    unfold turns
    rw [if_neg (by omega)]
    omega
  rw [stateOf_append _ c (by omega), siteOf_append c (by omega), turns_append c (by omega),
    if_neg (by omega), if_neg (by omega), if_pos (by omega), if_neg (by omega)]
  have hzero : f.length + 1 - (headerLength f + (lenByte f).toNat + 2) = 0 := by omega
  simp only [resumeWith, stateOf, put, hsite, hturns, hzero]

/-- The flags that the code reads back from the buffer are those of the frame. -/
theorem signed_iff {buffer : Region UInt8} {f : List UInt8} (c : UInt8)
    (hread : buffer.read 0 f.length = f) (h : 2 < f.length) :
    (magic f = 0xFD ∧ (buffer.store f.length c).cell 2 &&& 0x01 ≠ 0) ↔ Signed f := by
  have hcell : (buffer.store f.length c).cell 2 = f.getD 2 0 := by
    have hget := Region.read_getElem? buffer (i := 0) h
    rw [hread] at hget
    rw [Region.store_cell_ne buffer c (by omega), List.getD_eq_getElem?_getD, hget, Option.getD_some,
      Nat.zero_add]
  rw [hcell, Signed]

theorem crc2_step (buffer : Region UInt8) (f : List UInt8) (c : UInt8)
    (hread : buffer.read 0 f.length = f)
    (hat : f.length = headerLength f + (lenByte f).toNat + 1) :
    resumeWith (stateOf buffer f) c =
      if Signed f then .coAwait (stateOf (buffer.store f.length c) (f ++ [c]))
      else .coYield (.ok (headerView f)) (nextMessage (put (stateOf buffer f) c)) := by
  have hheader := headerLength_cases f
  have hsite : siteOf f = .crc2 := by
    unfold siteOf
    rw [if_neg (by omega), if_neg (by omega), if_neg (by omega), if_pos hat]
  have hturns : turns f = 0 := by
    unfold turns
    rw [if_neg (by omega)]
    omega
  have hcode : resumeWith (stateOf buffer f) c = checkSignature (put (stateOf buffer f) c) := by
    simp only [resumeWith, stateOf, hsite]
  have hsigned := signed_iff c hread (show 2 < f.length by omega)
  have hsite' : siteOf (f ++ [c]) = .signature := by
    rw [siteOf_append c (by omega), if_neg (by omega), if_neg (by omega), if_neg (by omega)]
  have hturns' : turns (f ++ [c]) = 0 := by
    rw [turns_append c (by omega), if_neg (by omega)]
    omega
  rw [hcode, stateOf_append _ c (by omega), hsite', hturns']
  by_cases hs : Signed f
  · have hflags := hsigned.mpr hs
    simp only [checkSignature, signatureLoop, put, stateOf, if_pos hflags, if_pos hs, hturns]
    rfl
  · have hflags := mt hsigned.mp hs
    rw [if_neg hs]
    exact if_neg hflags

theorem signature_step (buffer : Region UInt8) (f : List UInt8) (c : UInt8)
    (hlt : headerLength f + (lenByte f).toNat + 1 < f.length) (hroom : f.length < buffer.size) :
    resumeWith (stateOf buffer f) c =
      if f.length + 1 < headerLength f + (lenByte f).toNat + 15 then
        .coAwait (stateOf (buffer.store f.length c) (f ++ [c]))
      else .coYield (.ok (headerView f))
        (nextMessage { put (stateOf buffer f) c with i := turns f + 1 }) := by
  have hsite : siteOf f = .signature := by
    unfold siteOf
    rw [if_neg (by omega), if_neg (by omega), if_neg (by omega), if_neg (by omega)]
  have hturns : turns f = f.length - (headerLength f + (lenByte f).toNat + 2) := if_neg (by omega)
  have hcode : resumeWith (stateOf buffer f) c =
      signatureLoop { put (stateOf buffer f) c with i := turns f + 1 } := by
    simp only [resumeWith, stateOf, hsite, if_neg (Nat.not_le.mpr hroom)]
  have hsite' : siteOf (f ++ [c]) = .signature := by
    rw [siteOf_append c (by omega), if_neg (by omega), if_neg (by omega), if_neg (by omega)]
  have hturns' : turns (f ++ [c]) = turns f + 1 := by
    rw [turns_append c (by omega), if_neg (by omega)]
    omega
  rw [hcode, stateOf_append _ c (by omega), hsite', hturns']
  unfold signatureLoop
  by_cases hmore : f.length + 1 < headerLength f + (lenByte f).toNat + 15
  · have hi : turns f + 1 < 13 := by omega
    simp only [stateOf, put, hi, hmore, if_true]
  · have hi : ¬ turns f + 1 < 13 := by omega
    simp only [stateOf, put, hi, hmore, if_false]

/-! ## The simulation -/

theorem read_next {buffer : Region UInt8} {f : List UInt8} (c : UInt8)
    (hread : buffer.read 0 f.length = f) :
    (buffer.store f.length c).read 0 (f ++ [c]).length = f ++ [c] := by
  have hend := buffer.read_store_end 0 f.length c
  rw [Nat.zero_add, hread] at hend
  rw [List.length_append, List.length_singleton, hend]

theorem grows {N : ℕ} {buffer : Region UInt8} {f : List UInt8} {c : UInt8}
    (hsize : buffer.size = N) (hf : Unfinished f) (hread : buffer.read 0 f.length = f)
    (hcheck : ¬ (Checked f ∧ N ≤ f.length)) (hmore : f.length + 1 < frameLength (f ++ [c]))
    (hcode : resumeWith (stateOf buffer f) c =
      .coAwait (stateOf (buffer.store f.length c) (f ++ [c]))) :
    Follows N (resumeWith (stateOf buffer f) c) (phaseStep N (.frame f) c) := by
  rw [hcode, phaseStep, if_neg hcheck, if_neg (Nat.ne_of_lt hmore)]
  refine ⟨⟨hsize, ⟨?_, by simp, by simpa using hmore⟩, rfl, read_next c hread⟩, rfl⟩
  rw [magic_append [c] hf.pos]
  exact hf.stx

theorem completes {N : ℕ} {buffer : Region UInt8} {f : List UInt8} {c : UInt8} {t : State}
    (hsize : buffer.size = N) (hread : buffer.read 0 f.length = f)
    (hcheck : ¬ (Checked f ∧ N ≤ f.length)) (hlast : f.length + 1 = frameLength (f ++ [c]))
    (hpayload : headerLength f + (lenByte f).toNat ≤ f.length)
    (ht : t.buffer = buffer.store f.length c)
    (hcode : resumeWith (stateOf buffer f) c = .coYield (.ok (headerView f)) (nextMessage t)) :
    Follows N (resumeWith (stateOf buffer f) c) (phaseStep N (.frame f) c) := by
  have hheader := headerLength_cases f
  rw [hcode, phaseStep, if_neg hcheck, if_pos hlast]
  have hslice : t.buffer.read (headerLength f) (lenByte f).toNat =
      ((f ++ [c]).drop (headerLength f)).take (lenByte f).toNat := by
    have h := Region.read_slice t.buffer (i := 0) (n := (f ++ [c]).length) (j := headerLength f)
      (k := (lenByte f).toNat) (by rw [List.length_append]; omega)
    rw [Nat.zero_add] at h
    rw [h, ht, read_next c hread]
  have hview : (headerView f).read t.buffer = frameView (f ++ [c]) := by
    rw [MessageView.read, frameView_eq, headerView_payload (by omega), hslice,
      headerView_append [c] (by omega),
      headerLength_append [c] (show 0 < f.length by omega),
      lenByte_append [c] (show 1 < f.length by omega)]
  have hsize' : t.buffer.size = N := by
    rw [ht]
    exact hsize
  refine ⟨⟨hsize', nextMessage_idles t⟩, ?_⟩
  exact congrArg (fun v => some (Except.ok v)) hview

theorem header_follows {N : ℕ} {buffer : Region UInt8} {f : List UInt8} (c : UInt8)
    (hsize : buffer.size = N) (hf : Unfinished f) (hread : buffer.read 0 f.length = f)
    (hlt : f.length < headerLength f) :
    Follows N (resumeWith (stateOf buffer f) c) (phaseStep N (.frame f) c) := by
  have hpos := hf.pos
  have hcheck : ¬ (Checked f ∧ N ≤ f.length) := fun h => absurd h.1.1 (by omega)
  have hmore : f.length + 1 < frameLength (f ++ [c]) := by
    rw [frameLength_eq, headerLength_append [c] hpos]
    omega
  apply grows hsize hf hread hcheck hmore
  by_cases hlast : f.length + 1 = headerLength f
  · exact header_last buffer f c hf.stx hpos hlast
  · exact header_step buffer f c hf.stx hpos (by omega)

theorem overrun_follows {N : ℕ} {buffer : Region UInt8} {f : List UInt8} (c : UInt8)
    (hsize : buffer.size = N) (hcheck : Checked f) (hfull : N ≤ f.length) :
    Follows N (resumeWith (stateOf buffer f) c) (phaseStep N (.frame f) c) := by
  obtain ⟨hheader, hcrc1, hcrc2⟩ := hcheck
  have hover : buffer.size ≤ f.length := by omega
  have hsite : siteOf f = .payload ∨ siteOf f = .signature := by
    unfold siteOf
    rw [if_neg (Nat.not_lt.mpr hheader), if_neg hcrc1, if_neg hcrc2]
    split
    · exact Or.inl rfl
    · exact Or.inr rfl
  have hcode : resumeWith (stateOf buffer f) c =
      .coYield (.error bufferOverrun) (nextMessage (stateOf buffer f)) := by
    obtain hsite | hsite := hsite
    · simp only [resumeWith, stateOf, hsite, if_pos hover]
    · simp only [resumeWith, stateOf, hsite, if_pos hover]
  rw [hcode, phaseStep, if_pos ⟨⟨hheader, hcrc1, hcrc2⟩, hfull⟩]
  exact ⟨⟨hsize, nextMessage_idles _⟩, rfl⟩

theorem tail_follows {N : ℕ} {buffer : Region UInt8} {f : List UInt8} (c : UInt8)
    (hsize : buffer.size = N) (hf : Unfinished f) (hread : buffer.read 0 f.length = f)
    (hheader : headerLength f ≤ f.length) (hcheck : ¬ (Checked f ∧ N ≤ f.length)) :
    Follows N (resumeWith (stateOf buffer f) c) (phaseStep N (.frame f) c) := by
  have hcases := headerLength_cases f
  have hshort := hf.short
  rw [frameLength_eq] at hshort
  have hlen : frameLength (f ++ [c]) =
      headerLength f + (lenByte f).toNat + 2 + if Signed f then 13 else 0 := by
    rw [frameLength_append [c] (by omega), frameLength_eq]
  obtain hlt | heq | hgt := Nat.lt_trichotomy f.length (headerLength f + (lenByte f).toNat)
  · have hroom : f.length < buffer.size := by
      by_contra hfull
      exact hcheck ⟨⟨hheader, by omega, by omega⟩, by omega⟩
    apply grows hsize hf hread hcheck (by omega)
    exact payload_step buffer f c hheader hlt hroom
  · apply grows hsize hf hread hcheck (by omega)
    exact crc1_step buffer f c heq
  · by_cases hcrc2 : f.length = headerLength f + (lenByte f).toNat + 1
    · have hcode := crc2_step buffer f c hread hcrc2
      by_cases hs : Signed f
      · rw [if_pos hs] at hcode hlen
        exact grows hsize hf hread hcheck (by omega) hcode
      · rw [if_neg hs] at hcode hlen
        exact completes hsize hread hcheck (by omega) (by omega) rfl hcode
    · have hroom : f.length < buffer.size := by
        by_contra hfull
        exact hcheck ⟨⟨hheader, by omega, by omega⟩, by omega⟩
      have hs : Signed f := by
        by_contra hs
        rw [if_neg hs] at hshort
        omega
      have hcode := signature_step buffer f c (by omega) hroom
      rw [if_pos hs] at hlen
      by_cases hmore : f.length + 1 < headerLength f + (lenByte f).toNat + 15
      · rw [if_pos hmore] at hcode
        exact grows hsize hf hread hcheck (by omega) hcode
      · rw [if_neg hmore] at hcode
        rw [if_pos hs] at hshort
        exact completes hsize hread hcheck (by omega) (by omega) rfl hcode

/-- **One byte**: the body and the frame machine stay related and give the same result. -/
theorem resumeWith_follows {N : ℕ} {s : State} {ph : Phase} (c : UInt8) (h : Tracks N s ph) :
    Follows N (resumeWith s c) (phaseStep N ph c) := by
  obtain ⟨hsize, hph⟩ := h
  cases ph with
  | idle =>
    obtain ⟨site, buffer, view, m, idx, len, i⟩ := s
    obtain ⟨rfl, rfl, rfl, rfl, rfl⟩ := hph
    by_cases hc : IsStx c
    · have hnot : ¬ (c ≠ 0xFD ∧ c ≠ 0xFE) := by
        rcases hc with rfl | rfl <;> decide
      have hunfinished : Unfinished [c] := by
        have hlong := eight_le_frameLength [c]
        exact ⟨hc, Nat.one_pos, by rw [List.length_singleton]; omega⟩
      have hstate : ({ put ⟨.stx, buffer, .empty, c, 0, 0, 0⟩ c with site := .len } : State) =
          stateOf (buffer.store 0 c) [c] := by
        have hheader := headerLength_cases [c]
        have hlt : [c].length < headerLength [c] := by
          rw [List.length_singleton]
          omega
        rw [stateOf_header _ hlt]
        rcases hc with rfl | rfl <;> rfl
      simp only [resumeWith, if_neg hnot, phaseStep, if_pos hc]
      rw [hstate]
      exact ⟨⟨hsize, hunfinished, rfl, read_next (f := []) c rfl⟩, rfl⟩
    · have hnot : c ≠ 0xFD ∧ c ≠ 0xFE := not_or.mp hc
      simp only [resumeWith, if_pos hnot, phaseStep, if_neg hc]
      exact ⟨⟨hsize, rfl, rfl, rfl, rfl, rfl⟩, rfl⟩
  | frame f =>
    obtain ⟨hf, hs, hread⟩ := hph
    rw [hs]
    by_cases hlt : f.length < headerLength f
    · exact header_follows c hsize hf hread hlt
    · by_cases hcheck : Checked f ∧ N ≤ f.length
      · exact overrun_follows c hsize hcheck.1 hcheck.2
      · exact tail_follows c hsize hf hread (Nat.not_lt.mp hlt) hcheck

def FramerTracks (N : ℕ) (f : Framer) (ph : Phase) : Prop := f.Ready ∧ Tracks N f.locals ph

theorem framer_simulates (buffer : Region UInt8) (N : ℕ) :
    (framerMachine buffer).Simulates (frameMachine N) (FramerTracks N) := by
  have hplain : ((plain (body buffer)).observe readOver).Simulates (frameMachine N) (Tracks N) :=
    fun _ _ c h => (resumeWith_follows c h).symm
  exact (body_alternates buffer).simulates hplain

def phaseAfter (N : ℕ) (u : List UInt8) : Phase := (frameMachine N).run .idle u

theorem phaseAfter_concat (N : ℕ) (u : List UInt8) (c : UInt8) :
    phaseAfter N (u ++ [c]) = (phaseStep N (phaseAfter N u) c).1 := Mealy.run_concat _ _ _ _

theorem framerAfter_tracks (buffer : Region UInt8) (u : List UInt8) :
    FramerTracks buffer.size (framerAfter buffer u) (phaseAfter buffer.size u) := by
  apply (framer_simulates buffer buffer.size).run
  refine ⟨create_ready _ (body_alternates buffer), ?_⟩
  rw [createFramer, create_locals _ (body_alternates buffer)]
  exact ⟨rfl, rfl, rfl, rfl, rfl, rfl⟩

/-- **The results of the framer are those of the frame machine.** -/
theorem resultsAfter_eq (buffer : Region UInt8) (u v : List UInt8) :
    resultsAfter buffer u v = (frameMachine buffer.size).outputs (phaseAfter buffer.size u) v :=
  (framer_simulates buffer buffer.size).outputs (framerAfter_tracks buffer u) v

theorem resultAfter_eq (buffer : Region UInt8) (u : List UInt8) (c : UInt8) :
    resultAfter buffer u c = (phaseStep buffer.size (phaseAfter buffer.size u) c).2 := by
  have hstep := (framer_simulates buffer buffer.size _ _ c (framerAfter_tracks buffer u)).1
  rw [resultAfter, framerAfter, Mealy.run_concat]
  exact hstep

end Avionicpp.Mavlink
