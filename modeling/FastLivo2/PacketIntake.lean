import FastLivo2.LidarPubHandler

/-!
# Taking in a packet

The number of points of a packet, its length and the type of its data are fields of its header,
which the callback believes: it divides by the first, subtracts the size of the header from the
second, and the decoder reads as many points as the first says, of a size that depends on the third.
The module says which headers are taken in without harm.
-/

namespace FastLivo2

namespace LivoxLidarEthernetPacket

variable (data : LivoxLidarEthernetPacket)

/-- The packet goes through the callback and the decoder: nothing is divided by zero, the length of
its points is that of the packet without its header, and no point is read beyond them. -/
def TakenIn {K : Type} [Field K] (T : Trigonometry K) (h : LidarPubHandler K) (handle : UInt32)
    (devType : UInt8) (now : UInt64) : Prop :=
  ∃ r, onLivoxLidarPointCloudCallback handle devType data now = .ok r ∧
    ∀ pkt ∈ r, pkt.rawData.length + 36 = data.length.toNat ∧
      ∃ h', h.livoxLidarPointCloudProcess T pkt = .ok h'

/-- The fields of the header agree. -/
def WellFormed : Prop :=
  data.dataType = 0 ∨ data.dotNum ≠ 0 ∧ 36 ≤ data.length.toNat ∧
    LidarPubHandler.pointSize data.dataType * data.dotNum.toNat ≤ data.length.toNat - 36

variable {data}

lemma toNat_payloadLength :
    data.payloadLength.toNat =
      if 36 ≤ data.length.toNat then data.length.toNat - 36
      else data.length.toNat + 2 ^ 32 - 36 := by
  have hlt := data.length.toNat_lt
  unfold payloadLength sizeofEthernetPacket
  rw [UInt64.toNat_toUInt32, UInt64.toNat_add, UInt64.toNat_sub, UInt64.toNat_ofNat']
  simp only [UInt64.reduceToNat, UInt64.toNat_one]
  split_ifs <;> omega

/-- The length does not wrap if the packet is as long as its header. -/
lemma payloadLength_iff : data.payloadLength.toNat + 36 = data.length.toNat ↔
    36 ≤ data.length.toNat := by
  have hlt := data.length.toNat_lt
  rw [toNat_payloadLength]
  split_ifs <;> omega

lemma lineNumber_ne_zero (devType : UInt8) : lineNumber devType ≠ 0 := by
  unfold lineNumber
  split_ifs <;> decide

/-- **Intake.**  A packet is taken in exactly when the fields of its header agree. -/
theorem takenIn_iff {K : Type} [Field K] (T : Trigonometry K) (h : LidarPubHandler K)
    (handle : UInt32) (devType : UInt8) (data : LivoxLidarEthernetPacket) (now : UInt64) :
    data.TakenIn T h handle devType now ↔ data.WellFormed := by
  unfold TakenIn WellFormed onLivoxLidarPointCloudCallback
  by_cases himu : data.dataType = 0
  · rw [if_pos himu]
    exact iff_of_true ⟨none, rfl, nofun⟩ (.inl himu)
  · rw [if_neg himu, or_iff_right himu]
    by_cases hdots : data.dotNum = 0
    · rw [if_pos hdots]
      refine iff_of_false ?_ fun hwell => hwell.1 hdots
      rintro ⟨r, hr, -⟩
      cases hr
    · rw [if_neg hdots, and_iff_right hdots]
      have hnum : (UInt32.ofNat data.dotNum.toNat).toNat = data.dotNum.toNat := by
        have := data.dotNum.toNat_lt
        rw [UInt32.toNat_ofNat']
        omega
      constructor
      · rintro ⟨r, hr, hall⟩
        cases hr
        obtain ⟨hlength, hdecoded⟩ := hall _ rfl
        rw [List.length_map, List.length_range] at hlength
        have hfits := (h.livoxLidarPointCloudProcess_returns_iff _
          (lineNumber_ne_zero devType)).mp hdecoded
        rw [List.length_map, List.length_range, hnum] at hfits
        have hle := Nat.add_le_add_right hfits 36
        rw [hlength] at hle
        exact ⟨payloadLength_iff.mp hlength, Nat.le_sub_of_add_le hle⟩
      · rintro ⟨hlength, hfits⟩
        have hpayload := payloadLength_iff.mpr hlength
        refine ⟨_, rfl, fun pkt hpkt => ?_⟩
        obtain rfl := Option.some.inj hpkt
        refine ⟨?_, ?_⟩
        · rwa [List.length_map, List.length_range]
        · refine (h.livoxLidarPointCloudProcess_returns_iff _ (lineNumber_ne_zero devType)).mpr ?_
          rw [List.length_map, List.length_range, hnum]
          exact hfits.trans (Nat.sub_le_of_le_add hpayload.ge)

/-- A packet without points. -/
def empty : LivoxLidarEthernetPacket := ⟨36, 0, 0, 1, 0, 0, fun _ => 0⟩

/-- No packet is taken in from it. -/
theorem empty_not_takenIn :
    ¬empty.TakenIn (⟨fun _ => 0, fun _ => 1, 3⟩ : Trigonometry ℚ) .new 7 9 0 := by
  rintro ⟨r, hr, -⟩
  cases hr

end LivoxLidarEthernetPacket

end FastLivo2
