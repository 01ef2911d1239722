import Licode.Media.FecSoundness

/-!
# What the generator makes

`GenerateFEC` takes the packets of a frame in turn into each FEC packet whose mask selects them. For a frame
of packets with consecutive numbers, each of which fits with the headers that FEC adds, what comes out has the
parity of the selected packets, and says which they are.
-/

namespace Licode.Media.Fec

open Overlay

/-- Where a byte of the bit string is in an FEC packet. -/
def place (lBit : Bool) (i : Nat) : Nat := if i < 10 then i else kFecHeaderSize + ulpHeaderSize lBit + (i - 10)

theorem sizes (lBit : Bool) : kFecHeaderSize + ulpHeaderSize lBit = fecRtpOffset lBit + kRtpHeaderSize
    ∧ 2 ≤ fecRtpOffset lBit ∧ fecRtpOffset lBit ≤ 6 ∧ kRtpHeaderSize = 12 ∧ ipPacketSize = 1500
    ∧ kFecHeaderSize + ulpHeaderSize lBit = 12 + maskSize lBit := by
  cases lBit <;> decide

theorem parityOf_concat (ws : List (List UInt8)) (w : List UInt8) (i : Nat) :
    parityOf (ws ++ [w]) i = parityOf ws i ^^^ bitString w i := by
  rw [parityOf, List.map_append]
  exact Parity.parity_concat _ _ _ _

/-- An FEC packet that has taken in some packets, before its headers are written. -/
structure Generated (lBit : Bool) (fec : Packet) (ws : List (List UInt8)) : Prop where
  untouched : ws = [] → fec.length = 0
  touched : ws ≠ [] → kFecHeaderSize + ulpHeaderSize lBit ≤ fec.length.toNat ∧ fec.length ≠ 0
  covers : ∀ w ∈ ws, w.length + fecRtpOffset lBit ≤ fec.length.toNat
  fits : fec.length.toNat ≤ ipPacketSize
  bits : ∀ i, Used i → place lBit i < ipPacketSize → fec.data.cell (place lBit i) = parityOf ws i

theorem generated_create (lBit : Bool) : Generated lBit .create [] where
  untouched _ := rfl
  touched h := absurd rfl h
  covers := by simp
  fits := Nat.zero_le _
  bits i _ _ := PacketData.cell_zero _

/-- The bytes that `GenerateFecBitStrings` copies for the first packet are its bit string. -/
theorem copyMediaPacket_spec {media fec : Packet} {w : List UInt8} {lBit : Bool} (hmedia : media.Carries w)
    (hheader : kRtpHeaderSize ≤ w.length) (hroom : w.length + fecRtpOffset lBit ≤ ipPacketSize)
    (hzero : ∀ i, Used i → place lBit i < ipPacketSize → fec.data.cell (place lBit i) = 0) :
    ∃ data, copyMediaPacket lBit fec media = .ok data
      ∧ ∀ i, Used i → place lBit i < ipPacketSize → data.cell (place lBit i) = bitString w i := by
  obtain ⟨hpayload, hoffset, hoffset', hrtp, hsize, -⟩ := sizes lBit
  have hlength := hmedia.length
  have hvalue : media.length - UInt16.ofNat kRtpHeaderSize = .ofNat (w.length - kRtpHeaderSize) := by
    apply UInt16.toNat_inj.mp
    rw [UInt16.toNat_sub, UInt16.toNat_ofNat', UInt16.toNat_ofNat']
    omega
  have hread : ∀ {offset count : Nat}, offset + count ≤ 12 → (read media.data.bytes offset count).length = count :=
    fun hle => PacketData.length_read (by omega)
  have hfield : (read media.data.bytes kRtpHeaderSize (media.length.toNat - kRtpHeaderSize)).length
      = w.length - kRtpHeaderSize := by
    rw [PacketData.length_read (by omega), hlength]
  have hword : (assignUWord16 (media.length - UInt16.ofNat kRtpHeaderSize)).length = 2 := length_image _ _
  obtain ⟨d₁, hd₁, hcell₁⟩ := fec.data.store_of_le 0 (read media.data.bytes 0 2) (by rw [hread (by omega)]; omega)
  obtain ⟨d₂, hd₂, hcell₂⟩ := d₁.store_of_le 4 (read media.data.bytes 4 4) (by rw [hread (by omega)]; omega)
  obtain ⟨d₃, hd₃, hcell₃⟩ := d₂.store_of_le 8 (assignUWord16 (media.length - UInt16.ofNat kRtpHeaderSize)) (by omega)
  obtain ⟨d₄, hd₄, hcell₄⟩ := d₃.store_of_le (kFecHeaderSize + ulpHeaderSize lBit)
    (read media.data.bytes kRtpHeaderSize (media.length.toNat - kRtpHeaderSize)) (by omega)
  rw [hread (by omega)] at hcell₁ hcell₂
  rw [hword] at hcell₃
  rw [hfield] at hcell₄
  refine ⟨d₄, ?_, fun i hused hin => ?_⟩
  · rw [copyMediaPacket, hd₁, Checked.ok_bind, hd₂, Checked.ok_bind, hd₃, Checked.ok_bind,
      PacketData.load_of_le (by omega), Checked.ok_bind, hd₄]
  · rw [bitString]
    by_cases h10 : i < 10
    · rw [place, if_pos h10, hcell₄, if_neg (by omega), hcell₃]
      by_cases h8 : i < 8
      · rw [if_neg (by omega), if_pos h8, hcell₂, ← hmedia.bytes i (by omega)]
        rcases hused with hlow | hhigh
        · rw [if_neg (by omega), hcell₁, if_pos (by omega), Nat.sub_zero, PacketData.getD_read (by omega), Nat.zero_add]
        · rw [if_pos (by omega), PacketData.getD_read (by omega), Nat.add_sub_cancel' hhigh]
      · rw [if_pos (by omega), if_neg h8, if_pos h10, hvalue]
    · rw [if_neg (by omega), if_neg h10]
      have hplace : place lBit i = kFecHeaderSize + ulpHeaderSize lBit + (i - 10) := if_neg h10
      have hbefore := hzero i hused hin
      rw [hplace] at hbefore ⊢
      rw [hcell₄]
      by_cases hw : i + 2 < w.length
      · rw [if_pos (by omega), PacketData.getD_read (by omega), ← hmedia.bytes (i + 2) hw]
        congr 1
        omega
      · rw [if_neg (by omega), hcell₃, if_neg (by omega), hcell₂, if_neg (by omega), hcell₁, if_neg (by omega), hbefore,
          List.getD_eq_default w _ (by omega)]

/-- Those that it combines with a later one likewise. -/
theorem combineMediaPacket_spec {media : Packet} (fec : Packet) {w : List UInt8} {lBit : Bool} (hmedia : media.Carries w)
    (hheader : kRtpHeaderSize ≤ w.length) (hroom : w.length + fecRtpOffset lBit ≤ ipPacketSize) :
    ∃ data, combineMediaPacket lBit fec media = .ok data
      ∧ ∀ i, Used i → place lBit i < ipPacketSize →
        data.cell (place lBit i) = fec.data.cell (place lBit i) ^^^ bitString w i := by
  obtain ⟨hpayload, hoffset, hoffset', hrtp, hsize, -⟩ := sizes lBit
  have hlength := hmedia.length
  have hvalue : media.length - UInt16.ofNat kRtpHeaderSize = .ofNat (w.length - kRtpHeaderSize) := by
    apply UInt16.toNat_inj.mp
    rw [UInt16.toNat_sub, UInt16.toNat_ofNat', UInt16.toNat_ofNat']
    omega
  have htotal : (media.length + UInt16.ofNat (fecRtpOffset lBit)).toNat = w.length + fecRtpOffset lBit := by
    rw [UInt16.toNat_add, UInt16.toNat_ofNat']
    omega
  obtain ⟨d₁, hd₁, hcell₁⟩ := PacketData.xorBytes_of_le media.data fec.data 0 2 (Nat.zero_le _) (by omega)
  obtain ⟨d₂, hd₂, hcell₂⟩ := PacketData.xorBytes_of_le media.data d₁ 4 4 (Nat.zero_le _) (by omega)
  obtain ⟨d₃, hd₃, hcell₃⟩ := PacketData.xorByte_of_lt (show 8 < ipPacketSize by omega) d₂
    ((assignUWord16 (media.length - UInt16.ofNat kRtpHeaderSize)).getD 0 0)
  obtain ⟨d₄, hd₄, hcell₄⟩ := PacketData.xorByte_of_lt (show 9 < ipPacketSize by omega) d₃
    ((assignUWord16 (media.length - UInt16.ofNat kRtpHeaderSize)).getD 1 0)
  obtain ⟨d₅, hd₅, hcell₅⟩ := PacketData.xorBytes_of_le media.data d₄ (kFecHeaderSize + ulpHeaderSize lBit)
    ((media.length + UInt16.ofNat (fecRtpOffset lBit)).toNat - (kFecHeaderSize + ulpHeaderSize lBit))
    (show fecRtpOffset lBit ≤ kFecHeaderSize + ulpHeaderSize lBit by omega) (by omega)
  rw [htotal] at hcell₅
  refine ⟨d₅, ?_, fun i hused hin => ?_⟩
  · rw [combineMediaPacket, hd₁, Checked.ok_bind, hd₂, Checked.ok_bind, hd₃, Checked.ok_bind, hd₄, Checked.ok_bind]
    exact hd₅
  · rw [bitString]
    by_cases h10 : i < 10
    · rw [place, if_pos h10, hcell₅, if_neg (by omega), hcell₄, hcell₃, hcell₂, hcell₁, hvalue]
      by_cases h8 : i < 8
      · rw [if_pos h8, if_neg (by omega), if_neg (by omega), ← hmedia.bytes i (by omega), Nat.sub_zero]
        rcases hused with hlow | hhigh
        · rw [if_neg (by omega), if_pos (by omega)]
        · rw [if_pos (by omega), if_neg (by omega)]
      · rw [if_neg h8, if_pos h10, if_neg (show ¬ (4 ≤ i ∧ i < 4 + 4) by omega),
          if_neg (show ¬ (0 ≤ i ∧ i < 0 + 2) by omega)]
        obtain rfl | rfl : i = 8 ∨ i = 9 := by omega
        · rfl
        · rfl
    · have hplace : place lBit i = kFecHeaderSize + ulpHeaderSize lBit + (i - 10) := if_neg h10
      rw [hplace] at hin ⊢
      rw [if_neg (by omega), if_neg h10, hcell₅]
      by_cases hw : i + 2 < w.length
      · rw [if_pos (by omega), hcell₄, if_neg (by omega), hcell₃, if_neg (by omega), hcell₂, if_neg (by omega), hcell₁,
          if_neg (by omega), ← hmedia.bytes (i + 2) hw]
        congr 2
        omega
      · rw [if_neg (by omega), hcell₄, if_neg (by omega), hcell₃, if_neg (by omega), hcell₂, if_neg (by omega), hcell₁,
          if_neg (by omega), List.getD_eq_default w _ (by omega), UInt8.xor_zero]

theorem addMediaPacket_spec {media fec : Packet} {w : List UInt8} {ws : List (List UInt8)} {lBit : Bool}
    (h : Generated lBit fec ws) (hmedia : media.Carries w) (hheader : kRtpHeaderSize ≤ w.length)
    (hroom : w.length + fecRtpOffset lBit ≤ ipPacketSize) :
    ∃ fec', addMediaPacket lBit fec media = .ok fec' ∧ Generated lBit fec' (ws ++ [w]) := by
  obtain ⟨hpayload, hoffset, hoffset', hrtp, hsize, -⟩ := sizes lBit
  have hlength := hmedia.length
  have htotal : (media.length + UInt16.ofNat (fecRtpOffset lBit)).toNat = w.length + fecRtpOffset lBit := by
    rw [UInt16.toNat_add, UInt16.toNat_ofNat']
    omega
  have hdata : ∃ data, addMediaPacket lBit fec media
      = .ok { data, length := if media.length + UInt16.ofNat (fecRtpOffset lBit) > fec.length
          then media.length + UInt16.ofNat (fecRtpOffset lBit) else fec.length }
      ∧ ∀ i, Used i → place lBit i < ipPacketSize → data.cell (place lBit i) = parityOf (ws ++ [w]) i := by
    by_cases hfirst : fec.length = 0
    · have hnil : ws = [] := by
        by_contra hne
        exact (h.touched hne).2 hfirst
      subst hnil
      obtain ⟨data, hrun, hcell⟩ := copyMediaPacket_spec hmedia hheader hroom h.bits
      refine ⟨data, ?_, fun i hused hin => ?_⟩
      · rw [addMediaPacket, if_pos hfirst, hrun]
        rfl
      · rw [hcell i hused hin, parityOf_concat]
        exact (UInt8.zero_xor).symm
    · obtain ⟨data, hrun, hcell⟩ := combineMediaPacket_spec fec hmedia hheader hroom
      refine ⟨data, ?_, fun i hused hin => ?_⟩
      · rw [addMediaPacket, if_neg hfirst, hrun]
        rfl
      · rw [hcell i hused hin, parityOf_concat, h.bits i hused hin]
  obtain ⟨data, hrun, hbits⟩ := hdata
  have hgt : media.length + UInt16.ofNat (fecRtpOffset lBit) > fec.length ↔ fec.length.toNat < w.length + fecRtpOffset lBit := by
    rw [gt_iff_lt, UInt16.lt_iff_toNat_lt, htotal]
  have hfits := h.fits
  refine ⟨_, hrun, ⟨fun hnil => absurd hnil (List.append_ne_nil_of_right_ne_nil ws (List.cons_ne_nil w [])), fun _ => ?_,
    fun w' hw' => ?_, ?_, hbits⟩⟩
  · dsimp only
    split_ifs with hlonger
    · refine ⟨by omega, fun hzero => ?_⟩
      rw [hzero] at htotal
      change 0 = _ at htotal
      omega
    · rw [hgt] at hlonger
      refine ⟨by omega, fun hzero => ?_⟩
      rw [hzero] at hlonger
      change ¬ 0 < _ at hlonger
      omega
  · dsimp only
    have hcovers : ∀ w' ∈ ws, w'.length + fecRtpOffset lBit ≤ fec.length.toNat := h.covers
    split_ifs with hlonger
    · rw [hgt] at hlonger
      rcases List.mem_append.mp hw' with hw' | hw'
      · have hle := hcovers w' hw'
        omega
      · rw [List.mem_singleton.mp hw']
        omega
    · rw [hgt] at hlonger
      rcases List.mem_append.mp hw' with hw' | hw'
      · exact hcovers w' hw'
      · rw [List.mem_singleton.mp hw']
        omega
  · dsimp only
    split_ifs <;> omega

/-! ### Masks -/

/-- The bit of a mask that selects the packet with a distance from the first. -/
def maskBit (mask : List UInt8) (i : Nat) : Bool := bitSet (mask.getD (i / 8) 0) (i % 8)

/-- The packets of a frame that a mask selects. -/
def selected (mask : List UInt8) : Nat → List (List UInt8) → List (List UInt8)
  | _, [] => []
  | k, w :: ws => if maskBit mask k then w :: selected mask (k + 1) ws else selected mask (k + 1) ws

theorem selected_eq (mask : List UInt8) (k : Nat) (ws : List (List UInt8)) :
    selected mask k ws = ((List.range' k ws.length).filter (maskBit mask)).map fun i => ws.getD (i - k) [] := by
  induction ws generalizing k with
  | nil => rfl
  | cons w ws ih =>
      have hrest : (((List.range' (k + 1) ws.length).filter (maskBit mask)).map fun i => (w :: ws).getD (i - k) [])
          = selected mask (k + 1) ws := by
        rw [ih]
        apply List.map_congr_left
        intro i hi
        have hge := (List.mem_range'_1.mp (List.mem_of_mem_filter hi)).1
        rw [show i - k = (i - (k + 1)) + 1 by omega, List.getD_cons_succ]
      rw [selected, List.length_cons, List.range'_succ]
      by_cases hbit : maskBit mask k = true
      · rw [if_pos hbit, List.filter_cons_of_pos hbit, List.map_cons, hrest, Nat.sub_self]
        rfl
      · rw [if_neg hbit, List.filter_cons_of_neg hbit, hrest]

theorem succ_div_mod (k : Nat) :
    (k % 8 + 1 = 8 ∧ (k + 1) / 8 = k / 8 + 1 ∧ (k + 1) % 8 = 0) ∨
      (k % 8 + 1 ≠ 8 ∧ (k + 1) / 8 = k / 8 ∧ (k + 1) % 8 = k % 8 + 1) := by
  omega

/-- The loop over the packets of a frame with consecutive numbers. -/
theorem addMediaPackets_spec {lBit : Bool} {packetMask mask : List UInt8} {start : Nat} {base : UInt16}
    {packets : List Packet} {ws : List (List UInt8)} (hcarries : List.Forall₂ Packet.Carries packets ws)
    (hheader : ∀ w ∈ ws, kRtpHeaderSize ≤ w.length) (hroom : ∀ w ∈ ws, w.length + fecRtpOffset lBit ≤ ipPacketSize)
    {k : Nat} (hnumber : ∀ i (h : i < packets.length), parseSequenceNumber packets[i] = base + .ofNat (k + i))
    (hmask : ∀ i < k + ws.length, maskByte packetMask (start + i / 8) = .ok (mask.getD (i / 8) 0))
    {fec : Packet} {done : List (List UInt8)} (h : Generated lBit fec done) :
    ∃ fec', addMediaPackets lBit packetMask packets (start + k / 8) (k % 8) fec = .ok fec'
      ∧ Generated lBit fec' (done ++ selected mask k ws) := by
  induction hcarries generalizing k fec done with
  | nil => exact ⟨fec, rfl, by rwa [selected, List.append_nil]⟩
  | @cons media w packets ws hmedia hrest ih =>
      have hbit : maskByte packetMask (start + k / 8) = .ok (mask.getD (k / 8) 0) :=
        hmask k (by rw [List.length_cons]; omega)
      -- the packet itself
      have hone : ∃ fec₁, (if maskBit mask k then addMediaPacket lBit fec media else .ok fec) = .ok fec₁
          ∧ Generated lBit fec₁ (done ++ if maskBit mask k then [w] else []) := by
        split_ifs
        · exact addMediaPacket_spec h hmedia (hheader w List.mem_cons_self) (hroom w List.mem_cons_self)
        · exact ⟨fec, rfl, by rwa [List.append_nil]⟩
      obtain ⟨fec₁, hadd, hgenerated⟩ := hone
      have hnext : ∀ i (hi : i < packets.length), parseSequenceNumber packets[i] = base + .ofNat (k + 1 + i) := by
        intro i hi
        have hi' := hnumber (i + 1) (by rw [List.length_cons]; omega)
        rw [List.getElem_cons_succ] at hi'
        rw [hi', Nat.add_right_comm, Nat.add_assoc k i 1]
      obtain ⟨fec', hrun, hresult⟩ := ih (fun w hw => hheader w (List.mem_cons_of_mem _ hw))
        (fun w hw => hroom w (List.mem_cons_of_mem _ hw)) hnext
        (fun i hi => hmask i (by rw [List.length_cons]; omega)) hgenerated
      refine ⟨fec', ?_, ?_⟩
      · rw [addMediaPackets.eq_def]
        dsimp only
        rw [hbit, Checked.ok_bind, if_pos (by omega), Checked.ok_bind]
        have hjoin : ∀ next : Packet → Checked Packet, (if maskBit mask k = true then addMediaPacket lBit fec media >>= next
            else Except.ok fec >>= next) = next fec₁ := by
          intro next
          split_ifs at hadd ⊢ <;> rw [hadd, Checked.ok_bind]
        refine (hjoin _).trans ?_
        cases packets with
        | nil =>
            dsimp only
            rw [if_neg (by omega)]
            exact hrun
        | cons next packets =>
            have hstep : (parseSequenceNumber next - parseSequenceNumber media).toNat = 1 := by
              have hmediaNumber := hnumber 0 (by simp)
              have hnextNumber := hnumber 1 (by simp)
              rw [List.getElem_cons_zero, Nat.add_zero] at hmediaNumber
              rw [List.getElem_cons_succ, List.getElem_cons_zero] at hnextNumber
              have hbase := base.toNat_lt
              rw [hmediaNumber, hnextNumber, UInt16.toNat_sub, UInt16.toNat_add, UInt16.toNat_add, UInt16.toNat_ofNat',
                UInt16.toNat_ofNat']
              omega
            dsimp only
            obtain ⟨hlast, hdiv, hmod⟩ | ⟨hlast, hdiv, hmod⟩ := succ_div_mod k
            · rw [if_pos (by rw [hstep]; exact hlast)]
              rwa [hdiv, hmod, ← Nat.add_assoc] at hrun
            · rw [if_neg (by rw [hstep]; exact hlast), hstep]
              rwa [hdiv, hmod] at hrun
      · rw [selected]
        rw [List.append_assoc] at hresult
        split_ifs at hresult ⊢ <;> exact hresult

/-! ### The headers -/

theorem ulpFirst (x : UInt8) (lBit : Bool) :
    (if lBit then (x &&& 0x7f) ||| 0x40 else (x &&& 0x7f) &&& 0xbf) &&& 0x3f = x &&& 0x3f
      ∧ ((if lBit then (x &&& 0x7f) ||| 0x40 else (x &&& 0x7f) &&& 0xbf) &&& 0x40 != 0) = lBit := by
  have h : ∀ x : BitVec 8, (((x &&& 0x7f) ||| 0x40) &&& 0x3f = x &&& 0x3f ∧ ((x &&& 0x7f) ||| 0x40) &&& 0x40 = 0x40)
      ∧ ((x &&& 0x7f) &&& 0xbf) &&& 0x3f = x &&& 0x3f ∧ ((x &&& 0x7f) &&& 0xbf) &&& 0x40 = 0 := by decide +kernel
  obtain ⟨⟨hlow, hset⟩, hlow', hclear⟩ := h x.toBitVec
  cases lBit with
  | true =>
      have hset' : ((x &&& 0x7f) ||| 0x40) &&& 0x40 = (0x40 : UInt8) := UInt8.toBitVec_inj.mp hset
      exact ⟨UInt8.toBitVec_inj.mp hlow, by rw [if_pos rfl, hset']; rfl⟩
  | false =>
      have hclear' : ((x &&& 0x7f) &&& 0xbf) &&& 0x40 = (0 : UInt8) := UInt8.toBitVec_inj.mp hclear
      exact ⟨UInt8.toBitVec_inj.mp hlow', by rw [if_neg Bool.false_ne_true, hclear']; rfl⟩

/-- What the headers tell is what has been taken in. -/
theorem generateFecUlpHeader_spec (media : Packet) {lBit : Bool} {fec : Packet} {ws : List (List UInt8)}
    {packetMask mask : List UInt8} {i : Nat} (h : Generated lBit fec ws) (hne : ws ≠ [])
    (hload : Rtcp.load packetMask (i * maskSize lBit) (maskSize lBit) = .ok mask)
    (hmask : mask.length = maskSize lBit) :
    ∃ fec', generateFecUlpHeader media packetMask lBit i fec = .ok fec' ∧ Protects fec' ws
      ∧ fec'.mask = mask ∧ parseSequenceNumber fec' = parseSequenceNumber media
      ∧ fec'.length.toNat = payloadOffset fec' + protectionLength fec' := by
  obtain ⟨hpayload, hoffset, hoffset', hrtp, hsize, hmaskPlace⟩ := sizes lBit
  obtain ⟨hlong, -⟩ := h.touched hne
  have hfits := h.fits
  have hfec : kFecHeaderSize = 10 := rfl
  obtain ⟨hlow, hset⟩ := ulpFirst (fec.data.cell 0) lBit
  set first : UInt8 := if lBit then (fec.data.cell 0 &&& 0x7f) ||| 0x40 else (fec.data.cell 0 &&& 0x7f) &&& 0xbf with hfirst
  set protection := assignUWord16 (fec.length - UInt16.ofNat kFecHeaderSize - UInt16.ofNat (ulpHeaderSize lBit))
    with hprotection
  have hnumber : (read media.data.bytes 2 2).length = 2 := PacketData.length_read (by omega)
  have hword : protection.length = 2 := length_image _ _
  obtain ⟨d₁, hd₁, hcell₁⟩ := fec.data.store_of_le 0 [first] (by rw [List.length_singleton]; omega)
  obtain ⟨d₂, hd₂, hcell₂⟩ := d₁.store_of_le 2 (read media.data.bytes 2 2) (by omega)
  obtain ⟨d₃, hd₃, hcell₃⟩ := d₂.store_of_le 10 protection (by omega)
  obtain ⟨d₄, hd₄, hcell₄⟩ := d₃.store_of_le 12 mask (by omega)
  rw [List.length_singleton] at hcell₁
  rw [hnumber] at hcell₂
  rw [hword] at hcell₃
  rw [hmask] at hcell₄
  -- nothing but the first byte is written where the bit string is
  have hkept : ∀ j, j = 1 ∨ 4 ≤ j ∧ j < 10 ∨ kFecHeaderSize + ulpHeaderSize lBit ≤ j → d₄.cell j = fec.data.cell j := by
    intro j hj
    rw [hcell₄, if_neg (by omega), hcell₃, if_neg (by omega), hcell₂, if_neg (by omega), hcell₁, if_neg (by omega)]
  have hzero : d₄.cell 0 = first := by
    rw [hcell₄, if_neg (by omega), hcell₃, if_neg (by omega), hcell₂, if_neg (by omega), hcell₁, if_pos (by omega)]
    rfl
  have hread : ∀ {offset : Nat} {field : List UInt8}, (∀ j < field.length, d₄.cell (offset + j) = field.getD j 0) →
      offset + field.length ≤ ipPacketSize → read d₄.bytes offset field.length = field := by
    intro offset field hfield hle
    have hlength := PacketData.length_read (d := d₄) hle
    apply List.ext_getElem hlength
    intro j hj hj'
    have hbyte := hfield j hj'
    rw [← PacketData.getD_read hj', List.getD_eq_getElem _ _ hj, List.getD_eq_getElem _ _ hj'] at hbyte
    exact hbyte
  have hlBit : lBitSet ⟨fec.length, d₄⟩ = lBit := by
    rw [lBitSet]
    dsimp only
    rw [hzero]
    exact hset
  have hoffset₄ : payloadOffset ⟨fec.length, d₄⟩ = kFecHeaderSize + ulpHeaderSize lBit := by rw [payloadOffset, hlBit]
  have hlength : protectionLength ⟨fec.length, d₄⟩ = fec.length.toNat - (kFecHeaderSize + ulpHeaderSize lBit) := by
    have hbytes : read d₄.bytes 10 protection.length = protection := by
      apply hread
      · intro j hj
        rw [hcell₄, if_neg (by omega), hcell₃, if_pos (by omega), Nat.add_sub_cancel_left]
      · omega
    rw [hword] at hbytes
    have hlt := fec.length.toNat_lt
    rw [protectionLength]
    dsimp only
    rw [hbytes, hprotection, bufferToUWord16_assign, UInt16.toNat_sub, UInt16.toNat_sub, UInt16.toNat_ofNat',
      UInt16.toNat_ofNat']
    omega
  have hend : fec.length.toNat = payloadOffset ⟨fec.length, d₄⟩ + protectionLength ⟨fec.length, d₄⟩ := by
    rw [hoffset₄, hlength]
    exact (Nat.add_sub_cancel' hlong).symm
  refine ⟨⟨fec.length, d₄⟩, ?_, ⟨?_, ?_, ?_, ?_, ?_⟩, ?_, ?_, hend⟩
  · rw [generateFecUlpHeader, ← hfirst, hd₁, Checked.ok_bind, hd₂, Checked.ok_bind, hd₃, Checked.ok_bind, hload,
      Checked.ok_bind, hd₄]
    rfl
  · omega
  · intro w hw
    have hcovers := h.covers w hw
    omega
  · have hbit := h.bits 0 (.inl (by omega)) (show place lBit 0 < ipPacketSize by rw [place, if_pos (by omega)]; omega)
    rw [place, if_pos (by omega)] at hbit
    dsimp only
    rw [hzero, hlow, hbit]
  · intro j hj
    have hused : Used j := by
      rw [Used]
      omega
    have hbit := h.bits j hused (show place lBit j < ipPacketSize by rw [place, if_pos (by omega)]; omega)
    rw [place, if_pos (by omega)] at hbit
    exact (hkept j (by omega)).trans hbit
  · intro j hj
    have hplace : place lBit (10 + j) = kFecHeaderSize + ulpHeaderSize lBit + j := by
      rw [place, if_neg (by omega), Nat.add_sub_cancel_left]
    have hbit := h.bits (10 + j) (.inr (by omega)) (by omega)
    rw [hplace] at hbit
    rw [hoffset₄]
    exact (hkept _ (by omega)).trans hbit
  · have hbytes : read d₄.bytes 12 mask.length = mask := by
      apply hread
      · intro j hj
        rw [hcell₄, if_pos (by omega), Nat.add_sub_cancel_left]
      · omega
    rw [Packet.mask, hlBit, ← hmask]
    exact hbytes
  · have hbytes : read d₄.bytes 2 (read media.data.bytes 2 2).length = read media.data.bytes 2 2 := by
      apply hread
      · intro j hj
        rw [hcell₄, if_neg (by omega), hcell₃, if_neg (by omega), hcell₂, if_pos (by omega), Nat.add_sub_cancel_left]
      · omega
    rw [hnumber] at hbytes
    rw [parseSequenceNumber, parseSequenceNumber]
    exact congrArg bufferToUWord16 hbytes

/-! ### A frame -/

/-- Packets of the stream with consecutive numbers, which have room for the headers of FEC. -/
structure IsFrame (s : Stream) (base : UInt16) (packets : List Packet) : Prop where
  ne_nil : packets ≠ []
  few : packets.length ≤ kMaxMediaPackets
  known : ∀ i (h : i < packets.length), Known s (base + .ofNat i) packets[i]
  room : ∀ packet ∈ packets,
    packet.length.toNat + fecRtpOffset (decide (packets.length > 8 * kMaskSizeLBitClear)) ≤ ipPacketSize

/-- The masks of the FEC packets, each in its row. -/
def maskRow (masks : List UInt8) (lBit : Bool) (i : Nat) : List UInt8 := read masks (i * maskSize lBit) (maskSize lBit)

/-- Every mask selects some of the packets, and nothing beyond them. -/
structure MasksFit (masks : List UInt8) (numMedia numFec : Nat) : Prop where
  length : numFec * kMaskSizeLBitSet ≤ masks.length
  some : ∀ i < numFec, ∃ j < numMedia, maskBit (maskRow masks (decide (numMedia > 8 * kMaskSizeLBitClear)) i) j = true
  none : ∀ i < numFec, ∀ j, numMedia ≤ j →
    maskBit (maskRow masks (decide (numMedia > 8 * kMaskSizeLBitClear)) i) j = false

theorem MasksFit.length_row {masks : List UInt8} {numMedia numFec i : Nat} (h : MasksFit masks numMedia numFec) (hi : i < numFec)
    (lBit : Bool) : i * maskSize lBit + maskSize lBit ≤ masks.length ∧ (maskRow masks lBit i).length = maskSize lBit := by
  have hrow : (i + 1) * maskSize lBit ≤ masks.length :=
    (Nat.mul_le_mul hi (by cases lBit <;> decide)).trans h.length
  rw [Nat.add_mul, Nat.one_mul] at hrow
  exact ⟨hrow, Overlay.length_read hrow⟩

/-- A row has a bit for every packet of the frame. -/
theorem MasksFit.le_row {masks : List UInt8} {numMedia numFec i : Nat} (h : MasksFit masks numMedia numFec)
    (hfew : numMedia ≤ kMaxMediaPackets) (hi : i < numFec) :
    numMedia ≤ 8 * (maskRow masks (decide (numMedia > 8 * kMaskSizeLBitClear)) i).length := by
  rw [(h.length_row hi _).2]
  by_cases hlong : numMedia > 8 * kMaskSizeLBitClear
  · rw [decide_eq_true hlong]
    exact hfew
  · rw [decide_eq_false hlong]
    exact not_lt.mp hlong

theorem getNumberOfFecPackets_eq {numMedia protectionFactor : Nat} (hpos : 0 < numMedia) (hfactor : protectionFactor < 256) :
    ∃ numFec ≤ numMedia, getNumberOfFecPackets numMedia protectionFactor = .ok numFec := by
  have hle : (numMedia * protectionFactor + 2 ^ 7) / 2 ^ 8 ≤ numMedia := by
    have hmul : numMedia * protectionFactor ≤ numMedia * 255 := Nat.mul_le_mul_left _ (by omega)
    omega
  refine ⟨if protectionFactor > 0 ∧ (numMedia * protectionFactor + 2 ^ 7) / 2 ^ 8 = 0 then 1
    else (numMedia * protectionFactor + 2 ^ 7) / 2 ^ 8, ?_, ?_⟩
  · split_ifs <;> omega
  · rw [getNumberOfFecPackets, assert_of]
    · rfl
    · split_ifs <;> omega

theorem mapM_of_forall {α β : Type} {f : α → Checked β} {P : α → β → Prop} {xs : List α}
    (h : ∀ a ∈ xs, ∃ b, f a = .ok b ∧ P a b) : ∃ bs, xs.mapM f = .ok bs ∧ List.Forall₂ P xs bs := by
  induction xs with
  | nil => exact ⟨[], rfl, .nil⟩
  | cons a xs ih =>
      obtain ⟨b, hb, hab⟩ := h a List.mem_cons_self
      obtain ⟨bs, hbs, hall⟩ := ih fun a ha => h a (List.mem_cons_of_mem _ ha)
      refine ⟨b :: bs, ?_, .cons hab hall⟩
      rw [List.mapM_cons, hb, Checked.ok_bind, hbs]
      rfl

variable {s : Stream}

theorem Known.number {n : UInt16} {packet : Packet} (h : Known s n packet) : parseSequenceNumber packet = n := by
  have hmedia := h.1.isMedia
  have hheader := hmedia.header
  have hfits := hmedia.fits
  have hrtp : kRtpHeaderSize = 12 := rfl
  have hbytes : read packet.data.bytes 2 2 = read (s.content n) 2 2 := by
    have hleft : (read packet.data.bytes 2 2).length = 2 := PacketData.length_read (by omega)
    have hright : (read (s.content n) 2 2).length = 2 := Overlay.length_read (by omega)
    apply List.ext_getElem (hleft.trans hright.symm)
    intro i hi hi'
    have hcell := h.2.bytes (2 + i) (by omega)
    rw [← PacketData.getD_read (show i < 2 by omega), ← getD_read (show i < 2 by omega), List.getD_eq_getElem _ _ hi,
      List.getD_eq_getElem _ _ hi'] at hcell
    exact hcell
  rw [parseSequenceNumber, hbytes, hmedia.number, bufferToUWord16_assign]

/-- No number is missing in a frame, so that the masks stay as they are. -/
theorem insertZerosInBitMasks_eq {base : UInt16} {packets : List Packet} (h : IsFrame s base packets)
    (masks : List UInt8) (numMaskBytes numFec : Nat) :
    insertZerosInBitMasks packets masks numMaskBytes numFec = .ok (packets.length, masks) := by
  have hfew : packets.length ≤ 48 := h.few
  cases packets with
  | nil => exact absurd rfl h.ne_nil
  | cons first rest =>
      have hspan : (parseSequenceNumber (rest.getLastD first) - parseSequenceNumber first).toNat + 1
          = (first :: rest).length := by
        have hlast : rest.getLastD first = (first :: rest)[rest.length] := by
          rw [List.getLastD_eq_getLast?, List.getElem_cons_length rfl]
          cases rest with
          | nil => rfl
          | cons next rest => rw [List.getLast?_eq_getLast_of_ne_nil (List.cons_ne_nil _ _)]; rfl
        have hfirst := (h.known 0 (by simp)).number
        rw [List.getElem_cons_zero] at hfirst
        have hbase := base.toNat_lt
        rw [List.length_cons] at hfew ⊢
        rw [hlast, (h.known rest.length (by simp)).number, hfirst, UInt16.toNat_sub, UInt16.toNat_add, UInt16.toNat_add,
          UInt16.toNat_ofNat', UInt16.toNat_ofNat']
        omega
      rw [insertZerosInBitMasks]
      dsimp only
      rw [if_pos (.inr hspan)]

/-- The bits of a mask that select something are those of the frame. -/
theorem maskOffsets_eq {mask : List UInt8} {numMedia : Nat} (hle : numMedia ≤ 8 * mask.length)
    (hnone : ∀ j, numMedia ≤ j → maskBit mask j = false) :
    maskOffsets mask = (List.range numMedia).filter (maskBit mask) := by
  obtain ⟨behind, hbehind⟩ := Nat.exists_eq_add_of_le hle
  have hnil : (List.range' numMedia behind).filter (maskBit mask) = [] := by
    rw [List.filter_eq_nil_iff]
    intro j hj
    rw [hnone j (List.mem_range'_1.mp hj).1]
    exact Bool.false_ne_true
  change (List.range (8 * mask.length)).filter (maskBit mask) = _
  rw [hbehind, List.range_eq_range', List.range_eq_range', ← List.range'_append_1, Nat.zero_add, List.filter_append, hnil,
    List.append_nil]

/-- The packets of a frame, as they were sent. -/
def frameContents (s : Stream) (base : UInt16) (numMedia : Nat) : List (List UInt8) :=
  (List.range numMedia).map fun i => s.content (base + .ofNat i)

theorem IsFrame.carries {base : UInt16} {packets : List Packet} (h : IsFrame s base packets) :
    List.Forall₂ Packet.Carries packets (frameContents s base packets.length) := by
  refine List.forall₂_iff_get.mpr ⟨by rw [frameContents, List.length_map, List.length_range], fun i hi hi' => ?_⟩
  have hknown := (h.known i hi).2
  simpa [frameContents] using hknown

/-- What a mask selects from a frame are the packets that an FEC packet with it protects. -/
theorem selected_frame {base : UInt16} {fec : Packet} {mask : List UInt8} {numMedia : Nat} (hmask : fec.mask = mask)
    (hbase : parseSequenceNumber fec = base) (hle : numMedia ≤ 8 * mask.length)
    (hnone : ∀ j, numMedia ≤ j → maskBit mask j = false) :
    (protectedPackets fec).map (fun p => s.content p.seqNum) = selected mask 0 (frameContents s base numMedia) := by
  rw [selected_eq, protectedPackets, hmask, hbase, maskOffsets_eq hle hnone, List.map_map, frameContents, List.length_map,
    List.length_range, List.range_eq_range']
  apply List.map_congr_left
  intro i hi
  have hlt := (List.mem_range'_1.mp (List.mem_of_mem_filter hi)).2
  rw [Nat.sub_zero, List.getD_eq_getElem _ _ (by rw [List.length_map, List.length_range']; omega), List.getElem_map,
    List.getElem_range', Nat.one_mul, Nat.zero_add]
  rfl

theorem maskByte_row {masks : List UInt8} {numFec i j : Nat} {lBit : Bool} (hi : i < numFec)
    (hlength : numFec * kMaskSizeLBitSet ≤ masks.length) (hj : j < maskSize lBit) :
    maskByte masks (i * maskSize lBit + j) = .ok ((maskRow masks lBit i).getD j 0) := by
  have hsize : maskSize lBit ≤ kMaskSizeLBitSet := by cases lBit <;> decide
  have hrow : (i + 1) * maskSize lBit ≤ masks.length := (Nat.mul_le_mul hi hsize).trans hlength
  rw [Nat.add_mul, Nat.one_mul] at hrow
  rw [maskByte, dif_pos (by omega), maskRow, getD_read hj, List.getD_eq_getElem _ _ (by omega)]

/-- One FEC packet of a frame. -/
theorem generateFecPacket_spec {base : UInt16} {packets : List Packet} {masks : List UInt8} {numFec i : Nat}
    (h : IsFrame s base packets) (hmasks : MasksFit masks packets.length numFec) (hi : i < numFec) :
    ∃ fec, generateFecPacket packets masks (decide (packets.length > 8 * kMaskSizeLBitClear)) i = .ok fec
      ∧ IsFec s s.ssrc fec ∧ parseSequenceNumber fec = base
      ∧ fec.mask = maskRow masks (decide (packets.length > 8 * kMaskSizeLBitClear)) i
      ∧ fec.length.toNat = payloadOffset fec + protectionLength fec := by
  set lBit := decide (packets.length > 8 * kMaskSizeLBitClear) with hlBit
  set mask := maskRow masks lBit i with hmask
  obtain ⟨hrow, hlength⟩ := hmasks.length_row hi lBit
  have hle : packets.length ≤ 8 * mask.length := hmasks.le_row h.few hi
  rw [← hmask] at hlength
  have hcontents : ∀ w ∈ frameContents s base packets.length, kRtpHeaderSize ≤ w.length
      ∧ w.length + fecRtpOffset lBit ≤ ipPacketSize := by
    intro w hw
    obtain ⟨j, hj, rfl⟩ := List.mem_map.mp hw
    have hj := List.mem_range.mp hj
    have hknown := h.known j hj
    have hroom := h.room _ (List.getElem_mem hj)
    rw [hknown.2.length] at hroom
    exact ⟨hknown.1.isMedia.header, hroom⟩
  have hadded : ∃ fec, addMediaPackets lBit masks packets (i * maskSize lBit) 0 .create = .ok fec
      ∧ Generated lBit fec (selected mask 0 (frameContents s base packets.length)) := by
    have hbytes : ∀ j < 0 + (frameContents s base packets.length).length,
        maskByte masks (i * maskSize lBit + j / 8) = .ok (mask.getD (j / 8) 0) := by
      intro j hj
      rw [frameContents, List.length_map, List.length_range] at hj
      exact maskByte_row hi hmasks.length (by omega)
    exact addMediaPackets_spec h.carries (fun w hw => (hcontents w hw).1) (fun w hw => (hcontents w hw).2)
      (fun j hj => by rw [Nat.zero_add]; exact (h.known j hj).number) hbytes (generated_create lBit)
  obtain ⟨fec₀, hadd, hgenerated⟩ := hadded
  have hne : selected mask 0 (frameContents s base packets.length) ≠ [] := by
    obtain ⟨j, hj, hbit⟩ := hmasks.some i hi
    rw [selected_eq]
    refine List.ne_nil_of_mem (List.mem_map_of_mem (List.mem_filter.mpr ⟨?_, hbit⟩))
    rw [frameContents, List.length_map, List.length_range]
    exact List.mem_range'_1.mpr ⟨Nat.zero_le _, by omega⟩
  have hload : Rtcp.load masks (i * maskSize lBit) (maskSize lBit) = .ok mask := if_pos hrow
  obtain ⟨fec, hheader, hprotects, hfecMask, hnumber, hwhole⟩ :=
    generateFecUlpHeader_spec (packets.headD .create) hgenerated hne hload hlength
  have hbase : parseSequenceNumber fec = base := by
    rw [hnumber]
    cases packets with
    | nil => exact absurd rfl h.ne_nil
    | cons first rest =>
        have hfirst := (h.known 0 (by simp)).number
        rw [List.getElem_cons_zero] at hfirst
        rw [List.headD_cons, hfirst]
        exact UInt16.add_zero base
  refine ⟨fec, ?_, ⟨rfl, fun p hp => ?_, ?_⟩, hbase, hfecMask, hwhole⟩
  · rw [generateFecPacket, generateFecBitString, hadd, Checked.ok_bind, assert_of (hgenerated.touched hne).2]
    exact hheader
  · obtain ⟨j, hj, rfl⟩ := List.mem_map.mp hp
    rw [hfecMask, maskOffsets_eq hle (hmasks.none i hi)] at hj
    have hlt := List.mem_range.mp (List.mem_of_mem_filter hj)
    rw [hbase]
    exact (h.known j hlt).1
  · rw [selected_frame hfecMask hbase hle (hmasks.none i hi)]
    exact hprotects

/-- **What is generated for a frame.** -/
theorem generateFEC_spec {base : UInt16} {packets : List Packet} {masks : Nat → Nat → List UInt8}
    (h : IsFrame s base packets)
    (hmasks : ∀ numFec ≤ packets.length, MasksFit (masks packets.length numFec) packets.length numFec)
    (protectionFactor : UInt8) :
    ∃ fecs, ∃ numFec ≤ packets.length, getNumberOfFecPackets packets.length protectionFactor.toNat = .ok numFec
      ∧ generateFEC masks packets protectionFactor = .ok (some fecs)
      ∧ List.Forall₂ (fun i fec => IsFec s s.ssrc fec ∧ parseSequenceNumber fec = base
        ∧ fec.mask = maskRow (masks packets.length numFec) (decide (packets.length > 8 * kMaskSizeLBitClear)) i
        ∧ fec.length.toNat = payloadOffset fec + protectionLength fec)
        (List.range numFec) fecs := by
  have hfew : packets.length ≤ kMaxMediaPackets := h.few
  have hfew' : packets.length ≤ 48 := hfew
  have hpos : 0 < packets.length := List.length_pos_iff.mpr h.ne_nil
  have hmod : packets.length % 2 ^ 16 = packets.length := Nat.mod_eq_of_lt (by omega)
  obtain ⟨numFec, hle, hnumber⟩ := getNumberOfFecPackets_eq hpos protectionFactor.toNat_lt
  have hlong : (packets.any fun packet => decide (packet.length.toNat < kRtpHeaderSize)) = false := by
    rw [List.any_eq_false]
    intro packet hpacket
    obtain ⟨i, hi, rfl⟩ := List.getElem_of_mem hpacket
    have hknown := h.known i hi
    have hheader := hknown.1.isMedia.header
    rw [← hknown.2.length] at hheader
    simpa using hheader
  by_cases hzero : numFec = 0
  · subst hzero
    refine ⟨[], 0, hle, hnumber, ?_, .nil⟩
    rw [generateFEC, hmod, assert_of hpos, Checked.ok_bind, if_neg (by omega), hlong, hnumber]
    rfl
  · obtain ⟨fecs, hrun, hall⟩ := mapM_of_forall (fun i hi =>
      generateFecPacket_spec h (hmasks numFec hle) (List.mem_range.mp hi) : ∀ i ∈ List.range numFec, _)
    refine ⟨fecs, numFec, hle, hnumber, ?_, hall⟩
    rw [generateFEC, hmod, assert_of hpos, Checked.ok_bind, if_neg (by omega), hlong, hnumber]
    simp only [Bool.false_eq_true, if_false, Checked.ok_bind, if_neg hzero, insertZerosInBitMasks_eq h, hrun]
    rfl

end Licode.Media.Fec
