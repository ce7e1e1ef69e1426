import Specimen.Proofs.Text.Lowered

/-! The characters of identifiers in generated source, and what a change of case makes of them. Another form of a letter
or number begins with one of the same kind, and what has another form at all can stand in an identifier. -/
namespace Specimen

namespace Stride

/-- Whether an ascending table has all of `low`, `low + step`, …, up to `high`: what one run has of them, and the rest
those behind it. -/
def spans (low high step : Nat) : List Stride → Bool
  | [] => false
  | run :: rest => Nat.ble run.first low && ((Nat.blt run.last low && spans low high step rest) ||
    (Nat.ble low run.last &&
      (Nat.beq run.step 1 || (run.contains low && (Nat.beq low high || Nat.beq run.step step))) &&
      (Nat.ble high run.last || spans (low + ((run.last - low) / step + 1) * step) high step rest)))

/-- Whether no run of an ascending table reaches between `low` and `high`. -/
def clears (low high : Nat) : List Stride → Bool
  | [] => true
  | run :: rest => Nat.blt high run.first || (Nat.blt run.last low && clears low high rest)

variable {low high step c : Nat} {table : List Stride}

private theorem tableContains_of_spans (h : spans low high step table = true) (above : low ≤ c) (below : c ≤ high)
    (reached : (c - low) % step = 0) : tableContains table c = true := by
  induction table generalizing low with
  | nil => cases h
  | cons run rest ih =>
    simp only [spans, Bool.and_eq_true, Bool.or_eq_true, Nat.ble_eq, Nat.blt_eq, Nat.beq_eq] at h
    rw [tableContains, if_neg (by omega), Bool.or_eq_true]
    obtain ⟨first, ⟨-, later⟩ | ⟨⟨last, regular⟩, ends⟩⟩ := h
    · exact .inr (ih later above reached)
    · rcases Nat.lt_or_ge run.last c with past | within
      · -- the number lies behind the run, so it is one of those from the next on
        obtain ⟨turns, hturns⟩ := Nat.dvd_of_mod_eq_zero reached
        have fewer : (run.last - low) / step < turns := Nat.div_lt_of_lt_mul (by omega)
        have next : ((run.last - low) / step + 1) * step ≤ step * turns := by
          rw [Nat.mul_comm]
          exact Nat.mul_le_mul_left step fewer
        refine .inr (ih (ends.resolve_left (by omega)) (by omega) ?_)
        refine Nat.mod_eq_zero_of_dvd ⟨turns - ((run.last - low) / step + 1), ?_⟩
        rw [Nat.mul_sub, Nat.mul_comm step (_ + 1), ← hturns]
        omega
      · refine .inl ?_
        rcases regular with gapless | ⟨held, rfl | same⟩
        · simp only [contains, gapless, Nat.mod_one, Bool.and_eq_true, decide_eq_true_eq, beq_self_eq_true, and_true]
          omega
        · obtain rfl : low = c := by omega
          exact held
        · simp only [contains, Bool.and_eq_true, decide_eq_true_eq, beq_iff_eq, same] at held ⊢
          refine ⟨⟨by omega, within⟩, ?_⟩
          rw [show c - run.first = (c - low) + (low - run.first) by omega, Nat.add_mod, reached, held.2]
          rfl

private theorem exists_of_tableContains (h : tableContains table c = true) : ∃ run ∈ table, run.contains c = true := by
  induction table with
  | nil => cases h
  | cons run rest ih =>
    rw [tableContains] at h
    split at h
    · cases h
    · rcases (Bool.or_eq_true _ _).mp h with hin | later
      · exact ⟨run, List.mem_cons_self, hin⟩
      · obtain ⟨other, ho, hin⟩ := ih later
        exact ⟨other, List.mem_cons_of_mem run ho, hin⟩

private theorem tableContains_of_clears (h : clears low high table = true) (above : low ≤ c) (below : c ≤ high) :
    tableContains table c = false := by
  induction table with
  | nil => rfl
  | cons run rest ih =>
    rw [clears, Bool.or_eq_true, Bool.and_eq_true, Nat.blt_eq, Nat.blt_eq] at h
    rw [tableContains]
    split
    · rfl
    · obtain ⟨last, h⟩ := h.resolve_left (by omega)
      rw [ih h, Bool.or_false, contains]
      simp only [Bool.and_eq_false_iff, decide_eq_false_iff_not]
      exact .inl (.inr (by omega))

end Stride

namespace Text

section Classes

/-- Numbers that count as letters. -/
def letterNumberTable : List Stride :=
  [⟨0x16EE, 0x16F0, 1⟩, ⟨0x2160, 0x2182, 1⟩, ⟨0x2185, 0x2188, 1⟩, ⟨0x3007, 0x3007, 1⟩, ⟨0x3021, 0x3029, 1⟩,
   ⟨0x3038, 0x303A, 1⟩, ⟨0xA6E6, 0xA6EF, 1⟩, ⟨0x10140, 0x10174, 1⟩, ⟨0x10341, 0x10341, 1⟩, ⟨0x1034A, 0x1034A, 1⟩,
   ⟨0x103D1, 0x103D5, 1⟩, ⟨0x12400, 0x1246E, 1⟩]

/-- Marks that combine with what stands before them. -/
def markTable : List Stride :=
  [⟨0x300, 0x36F, 1⟩, ⟨0x483, 0x487, 1⟩, ⟨0x591, 0x5BD, 1⟩, ⟨0x5BF, 0x5BF, 1⟩, ⟨0x5C1, 0x5C2, 1⟩, ⟨0x5C4, 0x5C5, 1⟩,
   ⟨0x5C7, 0x5C7, 1⟩, ⟨0x610, 0x61A, 1⟩, ⟨0x64B, 0x65F, 1⟩, ⟨0x670, 0x670, 1⟩, ⟨0x6D6, 0x6DC, 1⟩, ⟨0x6DF, 0x6E4, 1⟩,
   ⟨0x6E7, 0x6E8, 1⟩, ⟨0x6EA, 0x6ED, 1⟩, ⟨0x711, 0x711, 1⟩, ⟨0x730, 0x74A, 1⟩, ⟨0x7A6, 0x7B0, 1⟩, ⟨0x7EB, 0x7F3, 1⟩,
   ⟨0x7FD, 0x7FD, 1⟩, ⟨0x816, 0x819, 1⟩, ⟨0x81B, 0x823, 1⟩, ⟨0x825, 0x827, 1⟩, ⟨0x829, 0x82D, 1⟩, ⟨0x859, 0x85B, 1⟩,
   ⟨0x898, 0x89F, 1⟩, ⟨0x8CA, 0x8E1, 1⟩, ⟨0x8E3, 0x903, 1⟩, ⟨0x93A, 0x93C, 1⟩, ⟨0x93E, 0x94F, 1⟩, ⟨0x951, 0x957, 1⟩,
   ⟨0x962, 0x963, 1⟩, ⟨0x981, 0x983, 1⟩, ⟨0x9BC, 0x9BC, 1⟩, ⟨0x9BE, 0x9C4, 1⟩, ⟨0x9C7, 0x9C8, 1⟩, ⟨0x9CB, 0x9CD, 1⟩,
   ⟨0x9D7, 0x9D7, 1⟩, ⟨0x9E2, 0x9E3, 1⟩, ⟨0x9FE, 0x9FE, 1⟩, ⟨0xA01, 0xA03, 1⟩, ⟨0xA3C, 0xA3C, 1⟩, ⟨0xA3E, 0xA42, 1⟩,
   ⟨0xA47, 0xA48, 1⟩, ⟨0xA4B, 0xA4D, 1⟩, ⟨0xA51, 0xA51, 1⟩, ⟨0xA70, 0xA71, 1⟩, ⟨0xA75, 0xA75, 1⟩, ⟨0xA81, 0xA83, 1⟩,
   ⟨0xABC, 0xABC, 1⟩, ⟨0xABE, 0xAC5, 1⟩, ⟨0xAC7, 0xAC9, 1⟩, ⟨0xACB, 0xACD, 1⟩, ⟨0xAE2, 0xAE3, 1⟩, ⟨0xAFA, 0xAFF, 1⟩,
   ⟨0xB01, 0xB03, 1⟩, ⟨0xB3C, 0xB3C, 1⟩, ⟨0xB3E, 0xB44, 1⟩, ⟨0xB47, 0xB48, 1⟩, ⟨0xB4B, 0xB4D, 1⟩, ⟨0xB55, 0xB57, 1⟩,
   ⟨0xB62, 0xB63, 1⟩, ⟨0xB82, 0xB82, 1⟩, ⟨0xBBE, 0xBC2, 1⟩, ⟨0xBC6, 0xBC8, 1⟩, ⟨0xBCA, 0xBCD, 1⟩, ⟨0xBD7, 0xBD7, 1⟩,
   ⟨0xC00, 0xC04, 1⟩, ⟨0xC3C, 0xC3C, 1⟩, ⟨0xC3E, 0xC44, 1⟩, ⟨0xC46, 0xC48, 1⟩, ⟨0xC4A, 0xC4D, 1⟩, ⟨0xC55, 0xC56, 1⟩,
   ⟨0xC62, 0xC63, 1⟩, ⟨0xC81, 0xC83, 1⟩, ⟨0xCBC, 0xCBC, 1⟩, ⟨0xCBE, 0xCC4, 1⟩, ⟨0xCC6, 0xCC8, 1⟩, ⟨0xCCA, 0xCCD, 1⟩,
   ⟨0xCD5, 0xCD6, 1⟩, ⟨0xCE2, 0xCE3, 1⟩, ⟨0xD00, 0xD03, 1⟩, ⟨0xD3B, 0xD3C, 1⟩, ⟨0xD3E, 0xD44, 1⟩, ⟨0xD46, 0xD48, 1⟩,
   ⟨0xD4A, 0xD4D, 1⟩, ⟨0xD57, 0xD57, 1⟩, ⟨0xD62, 0xD63, 1⟩, ⟨0xD81, 0xD83, 1⟩, ⟨0xDCA, 0xDCA, 1⟩, ⟨0xDCF, 0xDD4, 1⟩,
   ⟨0xDD6, 0xDD6, 1⟩, ⟨0xDD8, 0xDDF, 1⟩, ⟨0xDF2, 0xDF3, 1⟩, ⟨0xE31, 0xE31, 1⟩, ⟨0xE34, 0xE3A, 1⟩, ⟨0xE47, 0xE4E, 1⟩,
   ⟨0xEB1, 0xEB1, 1⟩, ⟨0xEB4, 0xEBC, 1⟩, ⟨0xEC8, 0xECD, 1⟩, ⟨0xF18, 0xF19, 1⟩, ⟨0xF35, 0xF35, 1⟩, ⟨0xF37, 0xF37, 1⟩,
   ⟨0xF39, 0xF39, 1⟩, ⟨0xF3E, 0xF3F, 1⟩, ⟨0xF71, 0xF84, 1⟩, ⟨0xF86, 0xF87, 1⟩, ⟨0xF8D, 0xF97, 1⟩, ⟨0xF99, 0xFBC, 1⟩,
   ⟨0xFC6, 0xFC6, 1⟩, ⟨0x102B, 0x103E, 1⟩, ⟨0x1056, 0x1059, 1⟩, ⟨0x105E, 0x1060, 1⟩, ⟨0x1062, 0x1064, 1⟩,
   ⟨0x1067, 0x106D, 1⟩, ⟨0x1071, 0x1074, 1⟩, ⟨0x1082, 0x108D, 1⟩, ⟨0x108F, 0x108F, 1⟩, ⟨0x109A, 0x109D, 1⟩,
   ⟨0x135D, 0x135F, 1⟩, ⟨0x1712, 0x1715, 1⟩, ⟨0x1732, 0x1734, 1⟩, ⟨0x1752, 0x1753, 1⟩, ⟨0x1772, 0x1773, 1⟩,
   ⟨0x17B4, 0x17D3, 1⟩, ⟨0x17DD, 0x17DD, 1⟩, ⟨0x180B, 0x180D, 1⟩, ⟨0x180F, 0x180F, 1⟩, ⟨0x1885, 0x1886, 1⟩,
   ⟨0x18A9, 0x18A9, 1⟩, ⟨0x1920, 0x192B, 1⟩, ⟨0x1930, 0x193B, 1⟩, ⟨0x1A17, 0x1A1B, 1⟩, ⟨0x1A55, 0x1A5E, 1⟩,
   ⟨0x1A60, 0x1A7C, 1⟩, ⟨0x1A7F, 0x1A7F, 1⟩, ⟨0x1AB0, 0x1ABD, 1⟩, ⟨0x1ABF, 0x1ACE, 1⟩, ⟨0x1B00, 0x1B04, 1⟩,
   ⟨0x1B34, 0x1B44, 1⟩, ⟨0x1B6B, 0x1B73, 1⟩, ⟨0x1B80, 0x1B82, 1⟩, ⟨0x1BA1, 0x1BAD, 1⟩, ⟨0x1BE6, 0x1BF3, 1⟩,
   ⟨0x1C24, 0x1C37, 1⟩, ⟨0x1CD0, 0x1CD2, 1⟩, ⟨0x1CD4, 0x1CE8, 1⟩, ⟨0x1CED, 0x1CED, 1⟩, ⟨0x1CF4, 0x1CF4, 1⟩,
   ⟨0x1CF7, 0x1CF9, 1⟩, ⟨0x1DC0, 0x1DFF, 1⟩, ⟨0x20D0, 0x20DC, 1⟩, ⟨0x20E1, 0x20E1, 1⟩, ⟨0x20E5, 0x20F0, 1⟩,
   ⟨0x2CEF, 0x2CF1, 1⟩, ⟨0x2D7F, 0x2D7F, 1⟩, ⟨0x2DE0, 0x2DFF, 1⟩, ⟨0x302A, 0x302F, 1⟩, ⟨0x3099, 0x309A, 1⟩,
   ⟨0xA66F, 0xA66F, 1⟩, ⟨0xA674, 0xA67D, 1⟩, ⟨0xA69E, 0xA69F, 1⟩, ⟨0xA6F0, 0xA6F1, 1⟩, ⟨0xA802, 0xA802, 1⟩,
   ⟨0xA806, 0xA806, 1⟩, ⟨0xA80B, 0xA80B, 1⟩, ⟨0xA823, 0xA827, 1⟩, ⟨0xA82C, 0xA82C, 1⟩, ⟨0xA880, 0xA881, 1⟩,
   ⟨0xA8B4, 0xA8C5, 1⟩, ⟨0xA8E0, 0xA8F1, 1⟩, ⟨0xA8FF, 0xA8FF, 1⟩, ⟨0xA926, 0xA92D, 1⟩, ⟨0xA947, 0xA953, 1⟩,
   ⟨0xA980, 0xA983, 1⟩, ⟨0xA9B3, 0xA9C0, 1⟩, ⟨0xA9E5, 0xA9E5, 1⟩, ⟨0xAA29, 0xAA36, 1⟩, ⟨0xAA43, 0xAA43, 1⟩,
   ⟨0xAA4C, 0xAA4D, 1⟩, ⟨0xAA7B, 0xAA7D, 1⟩, ⟨0xAAB0, 0xAAB0, 1⟩, ⟨0xAAB2, 0xAAB4, 1⟩, ⟨0xAAB7, 0xAAB8, 1⟩,
   ⟨0xAABE, 0xAABF, 1⟩, ⟨0xAAC1, 0xAAC1, 1⟩, ⟨0xAAEB, 0xAAEF, 1⟩, ⟨0xAAF5, 0xAAF6, 1⟩, ⟨0xABE3, 0xABEA, 1⟩,
   ⟨0xABEC, 0xABED, 1⟩, ⟨0xFB1E, 0xFB1E, 1⟩, ⟨0xFE00, 0xFE0F, 1⟩, ⟨0xFE20, 0xFE2F, 1⟩, ⟨0x101FD, 0x101FD, 1⟩,
   ⟨0x102E0, 0x102E0, 1⟩, ⟨0x10376, 0x1037A, 1⟩, ⟨0x10A01, 0x10A03, 1⟩, ⟨0x10A05, 0x10A06, 1⟩, ⟨0x10A0C, 0x10A0F, 1⟩,
   ⟨0x10A38, 0x10A3A, 1⟩, ⟨0x10A3F, 0x10A3F, 1⟩, ⟨0x10AE5, 0x10AE6, 1⟩, ⟨0x10D24, 0x10D27, 1⟩, ⟨0x10EAB, 0x10EAC, 1⟩,
   ⟨0x10F46, 0x10F50, 1⟩, ⟨0x10F82, 0x10F85, 1⟩, ⟨0x11000, 0x11002, 1⟩, ⟨0x11038, 0x11046, 1⟩, ⟨0x11070, 0x11070, 1⟩,
   ⟨0x11073, 0x11074, 1⟩, ⟨0x1107F, 0x11082, 1⟩, ⟨0x110B0, 0x110BA, 1⟩, ⟨0x110C2, 0x110C2, 1⟩, ⟨0x11100, 0x11102, 1⟩,
   ⟨0x11127, 0x11134, 1⟩, ⟨0x11145, 0x11146, 1⟩, ⟨0x11173, 0x11173, 1⟩, ⟨0x11180, 0x11182, 1⟩, ⟨0x111B3, 0x111C0, 1⟩,
   ⟨0x111C9, 0x111CC, 1⟩, ⟨0x111CE, 0x111CF, 1⟩, ⟨0x1122C, 0x11237, 1⟩, ⟨0x1123E, 0x1123E, 1⟩, ⟨0x112DF, 0x112EA, 1⟩,
   ⟨0x11300, 0x11303, 1⟩, ⟨0x1133B, 0x1133C, 1⟩, ⟨0x1133E, 0x11344, 1⟩, ⟨0x11347, 0x11348, 1⟩, ⟨0x1134B, 0x1134D, 1⟩,
   ⟨0x11357, 0x11357, 1⟩, ⟨0x11362, 0x11363, 1⟩, ⟨0x11366, 0x1136C, 1⟩, ⟨0x11370, 0x11374, 1⟩, ⟨0x11435, 0x11446, 1⟩,
   ⟨0x1145E, 0x1145E, 1⟩, ⟨0x114B0, 0x114C3, 1⟩, ⟨0x115AF, 0x115B5, 1⟩, ⟨0x115B8, 0x115C0, 1⟩, ⟨0x115DC, 0x115DD, 1⟩,
   ⟨0x11630, 0x11640, 1⟩, ⟨0x116AB, 0x116B7, 1⟩, ⟨0x1171D, 0x1172B, 1⟩, ⟨0x1182C, 0x1183A, 1⟩, ⟨0x11930, 0x11935, 1⟩,
   ⟨0x11937, 0x11938, 1⟩, ⟨0x1193B, 0x1193E, 1⟩, ⟨0x11940, 0x11940, 1⟩, ⟨0x11942, 0x11943, 1⟩, ⟨0x119D1, 0x119D7, 1⟩,
   ⟨0x119DA, 0x119E0, 1⟩, ⟨0x119E4, 0x119E4, 1⟩, ⟨0x11A01, 0x11A0A, 1⟩, ⟨0x11A33, 0x11A39, 1⟩, ⟨0x11A3B, 0x11A3E, 1⟩,
   ⟨0x11A47, 0x11A47, 1⟩, ⟨0x11A51, 0x11A5B, 1⟩, ⟨0x11A8A, 0x11A99, 1⟩, ⟨0x11C2F, 0x11C36, 1⟩, ⟨0x11C38, 0x11C3F, 1⟩,
   ⟨0x11C92, 0x11CA7, 1⟩, ⟨0x11CA9, 0x11CB6, 1⟩, ⟨0x11D31, 0x11D36, 1⟩, ⟨0x11D3A, 0x11D3A, 1⟩, ⟨0x11D3C, 0x11D3D, 1⟩,
   ⟨0x11D3F, 0x11D45, 1⟩, ⟨0x11D47, 0x11D47, 1⟩, ⟨0x11D8A, 0x11D8E, 1⟩, ⟨0x11D90, 0x11D91, 1⟩, ⟨0x11D93, 0x11D97, 1⟩,
   ⟨0x11EF3, 0x11EF6, 1⟩, ⟨0x16AF0, 0x16AF4, 1⟩, ⟨0x16B30, 0x16B36, 1⟩, ⟨0x16F4F, 0x16F4F, 1⟩, ⟨0x16F51, 0x16F87, 1⟩,
   ⟨0x16F8F, 0x16F92, 1⟩, ⟨0x16FE4, 0x16FE4, 1⟩, ⟨0x16FF0, 0x16FF1, 1⟩, ⟨0x1BC9D, 0x1BC9E, 1⟩, ⟨0x1CF00, 0x1CF2D, 1⟩,
   ⟨0x1CF30, 0x1CF46, 1⟩, ⟨0x1D165, 0x1D169, 1⟩, ⟨0x1D16D, 0x1D172, 1⟩, ⟨0x1D17B, 0x1D182, 1⟩, ⟨0x1D185, 0x1D18B, 1⟩,
   ⟨0x1D1AA, 0x1D1AD, 1⟩, ⟨0x1D242, 0x1D244, 1⟩, ⟨0x1DA00, 0x1DA36, 1⟩, ⟨0x1DA3B, 0x1DA6C, 1⟩, ⟨0x1DA75, 0x1DA75, 1⟩,
   ⟨0x1DA84, 0x1DA84, 1⟩, ⟨0x1DA9B, 0x1DA9F, 1⟩, ⟨0x1DAA1, 0x1DAAF, 1⟩, ⟨0x1E000, 0x1E006, 1⟩, ⟨0x1E008, 0x1E018, 1⟩,
   ⟨0x1E01B, 0x1E021, 1⟩, ⟨0x1E023, 0x1E024, 1⟩, ⟨0x1E026, 0x1E02A, 1⟩, ⟨0x1E130, 0x1E136, 1⟩, ⟨0x1E2AE, 0x1E2AE, 1⟩,
   ⟨0x1E2EC, 0x1E2EF, 1⟩, ⟨0x1E8D0, 0x1E8D6, 1⟩, ⟨0x1E944, 0x1E94A, 1⟩, ⟨0xE0100, 0xE01EF, 1⟩]

/-- What may begin an identifier though it is no letter. -/
def startTable : List Stride :=
  [⟨0x5F, 0x5F, 1⟩, ⟨0x1885, 0x1886, 1⟩, ⟨0x2118, 0x2118, 1⟩, ⟨0x212E, 0x212E, 1⟩]

/-- What may stand in an identifier though it is no letter, digit or mark. -/
def insideTable : List Stride :=
  [⟨0x5F, 0x5F, 1⟩, ⟨0xB7, 0xB7, 1⟩, ⟨0x387, 0x387, 1⟩, ⟨0x1369, 0x1371, 1⟩, ⟨0x19DA, 0x19DA, 1⟩, ⟨0x203F, 0x2040, 1⟩,
   ⟨0x2054, 0x2054, 1⟩, ⟨0x2118, 0x2118, 1⟩, ⟨0x212E, 0x212E, 1⟩, ⟨0xFE33, 0xFE34, 1⟩, ⟨0xFE4D, 0xFE4F, 1⟩,
   ⟨0xFF3F, 0xFF3F, 1⟩]

/-- Letters that no identifier contains: one is kept for syntax, the others have no identifiers as normal forms. -/
def unnamedTable : List Stride :=
  [⟨0x37A, 0x37A, 1⟩, ⟨0x2E2F, 0x2E2F, 1⟩, ⟨0xFC5E, 0xFC63, 1⟩, ⟨0xFDFA, 0xFDFB, 1⟩, ⟨0xFE70, 0xFE70, 1⟩,
   ⟨0xFE72, 0xFE72, 1⟩, ⟨0xFE74, 0xFE74, 1⟩, ⟨0xFE76, 0xFE76, 1⟩, ⟨0xFE78, 0xFE78, 1⟩, ⟨0xFE7A, 0xFE7A, 1⟩,
   ⟨0xFE7C, 0xFE7C, 1⟩, ⟨0xFE7E, 0xFE7E, 1⟩]

/-- Letters that no identifier begins with, for their normal forms begin with marks. -/
def innerTable : List Stride :=
  [⟨0xE33, 0xE33, 1⟩, ⟨0xEB3, 0xEB3, 1⟩, ⟨0xFF9E, 0xFF9F, 1⟩]

/-- Whether a number counts as a letter. -/
def isLetterNumber (c : CodePoint) : Bool := Stride.tableContains letterNumberTable c

/-- Whether a character may begin an identifier. -/
def isIdentifierStart (c : CodePoint) : Bool :=
  (isLetter c || isLetterNumber c || Stride.tableContains startTable c) &&
    !Stride.tableContains unnamedTable c && !Stride.tableContains innerTable c

/-- Whether a character may stand in an identifier behind its first one. -/
def isIdentifierPart (c : CodePoint) : Bool :=
  (isLetter c || isLetterNumber c || Stride.tableContains markTable c || (decimalDigit? c).isSome ||
    Stride.tableContains insideTable c) && !Stride.tableContains unnamedTable c

/-- A text that is an identifier. -/
def IsIdentifier (text : Text) : Prop :=
  ∃ c rest, text = c :: rest ∧ isIdentifierStart c = true ∧ ∀ d ∈ rest, isIdentifierPart d = true

instance : DecidablePred IsIdentifier
  | [] => .isFalse fun ⟨_, _, h, _⟩ => nomatch h
  | c :: rest => decidable_of_iff (isIdentifierStart c = true ∧ ∀ d ∈ rest, isIdentifierPart d = true)
    ⟨fun h => ⟨c, rest, rfl, h⟩, fun ⟨_, _, same, h⟩ => (List.cons.inj same).1 ▸ (List.cons.inj same).2 ▸ h⟩

end Classes

section Moves

/-- Whether a table has what a run is moved to. -/
def leadsInto (table : List Stride) (shift : ShiftRun) : Bool :=
  0 ≤ shift.run.first + shift.offset && Stride.spans (shift.run.first + shift.offset).toNat
    (shift.run.last + shift.offset).toNat shift.run.step table

/-- Whether a table has none of a run, nor of what it is moved to. -/
def staysOut (table : List Stride) (shift : ShiftRun) : Bool :=
  Stride.clears shift.run.first shift.run.last table &&
    Stride.clears (shift.run.first + shift.offset).toNat (shift.run.last + shift.offset).toNat table

private theorem tableContains_of_leadsInto {table : List Stride} {shift : ShiftRun} {c : CodePoint}
    (h : leadsInto table shift = true) (hc : shift.run.contains c = true) :
    Stride.tableContains table (c + shift.offset).toNat = true := by
  simp only [leadsInto, Stride.contains, Bool.and_eq_true, decide_eq_true_eq, beq_iff_eq] at h hc
  obtain ⟨⟨⟨above, below⟩, step⟩, positive, spans⟩ := And.intro hc h
  refine Stride.tableContains_of_spans spans (by omega) (by omega) ?_
  rwa [show (c + shift.offset).toNat - (shift.run.first + shift.offset).toNat = c - shift.run.first by omega]

private theorem tableContains_of_staysOut {table : List Stride} {shift : ShiftRun} {c : CodePoint}
    (h : staysOut table shift = true) (hc : shift.run.contains c = true) :
    Stride.tableContains table c = false ∧ Stride.tableContains table (c + shift.offset).toNat = false := by
  obtain ⟨source, target⟩ := (Bool.and_eq_true _ _).mp h
  simp only [Stride.contains, Bool.and_eq_true, decide_eq_true_eq] at hc
  exact ⟨Stride.tableContains_of_clears source hc.1.1 hc.1.2,
    Stride.tableContains_of_clears target (by omega) (by omega)⟩

/-- Another case of a letter is a letter, that of a letter number is one, and no other numbers have cases. -/
private theorem moves : ∀ shift ∈ lowerShifts ++ upperShifts,
    ((leadsInto letterTable shift && Stride.clears shift.run.first shift.run.last numeralTable) ||
      (leadsInto letterNumberTable shift &&
        Stride.spans shift.run.first shift.run.last shift.run.step letterNumberTable) ||
      (Stride.clears shift.run.first shift.run.last letterTable &&
        Stride.clears shift.run.first shift.run.last numeralTable)) = true := by
  decide +kernel

/-- Letters that cannot stand everywhere in identifiers have no cases and are no case of others. -/
private theorem moves_apart : ∀ shift ∈ lowerShifts ++ upperShifts,
    (staysOut unnamedTable shift && staysOut innerTable shift) = true := by
  decide +kernel

private theorem letterNumbers : ∀ run ∈ letterNumberTable, (Stride.clears run.first run.last letterTable &&
    Stride.spans run.first run.last 1 numeralTable) = true := by
  decide +kernel

private theorem isLetter_of_isLetterNumber {c : CodePoint} (h : isLetterNumber c = true) :
    isLetter c = false ∧ isAlphanumeric c = true := by
  obtain ⟨run, hrun, hc⟩ := Stride.exists_of_tableContains h
  obtain ⟨letter, numeral⟩ := (Bool.and_eq_true _ _).mp (letterNumbers run hrun)
  simp only [Stride.contains, Bool.and_eq_true, decide_eq_true_eq] at hc
  refine ⟨Stride.tableContains_of_clears letter hc.1.1 hc.1.2, ?_⟩
  rw [isAlphanumeric, Stride.tableContains_of_spans numeral hc.1.1 hc.1.2 (Nat.mod_one _), Bool.or_true]

/-- Whether one letter or number can stand in identifiers where another one can. -/
structure SameKind (c d : CodePoint) : Prop where
  alphanumeric : isAlphanumeric d = true
  letter : isLetter d = isLetter c
  start : isIdentifierStart d = isIdentifierStart c
  part : isIdentifierPart d = isIdentifierPart c

theorem SameKind.refl {c : CodePoint} (h : isAlphanumeric c = true) : SameKind c c := ⟨h, rfl, rfl, rfl⟩

theorem SameKind.trans {c d e : CodePoint} (h : SameKind c d) (h' : SameKind d e) : SameKind c e :=
  ⟨h'.alphanumeric, h'.letter.trans h.letter, h'.start.trans h.start, h'.part.trans h.part⟩

/-- What a character is that can begin an identifier. -/
private theorem start_and_part {c : CodePoint} (h : isLetter c = true ∨ isLetterNumber c = true)
    (unnamed : Stride.tableContains unnamedTable c = false) (inner : Stride.tableContains innerTable c = false) :
    isIdentifierStart c = true ∧ isIdentifierPart c = true := by
  rw [isIdentifierStart, isIdentifierPart, unnamed, inner]
  rcases h with h | h <;> simp [h]

/-- A letter that can begin an identifier can stand in it. -/
theorem isIdentifierPart_of_start {c : CodePoint} (letter : isLetter c = true) (start : isIdentifierStart c = true) :
    isIdentifierPart c = true := by
  simp only [isIdentifierStart, Bool.and_eq_true] at start
  rw [isIdentifierPart, letter, start.1.2]
  simp

/-- A letter or number that has another case can begin an identifier, and so can its other case. -/
private theorem sameKind_moved {shift : ShiftRun} {c : CodePoint} (hs : shift ∈ lowerShifts ++ upperShifts)
    (hc : shift.run.contains c = true) (h : isAlphanumeric c = true) :
    SameKind c (c + shift.offset).toNat ∧ isIdentifierPart c = true := by
  obtain ⟨unnamed, inner⟩ := (Bool.and_eq_true _ _).mp (moves_apart shift hs)
  obtain ⟨unnamed, unnamed'⟩ := tableContains_of_staysOut unnamed hc
  obtain ⟨inner, inner'⟩ := tableContains_of_staysOut inner hc
  have kinds := moves shift hs
  simp only [Bool.or_eq_true, Bool.and_eq_true] at kinds
  have hin := hc
  simp only [Stride.contains, Bool.and_eq_true, decide_eq_true_eq, beq_iff_eq] at hin
  obtain ⟨⟨above, below⟩, step⟩ := hin
  rcases kinds with (⟨target, numeral⟩ | ⟨target, source⟩) | ⟨letter, numeral⟩
  · have letter' : isLetter (c + shift.offset).toNat = true := tableContains_of_leadsInto target hc
    have letter : isLetter c = true := by
      rwa [isAlphanumeric, Stride.tableContains_of_clears numeral above below, Bool.or_false] at h
    obtain ⟨start, part⟩ := start_and_part (.inl letter) unnamed inner
    obtain ⟨start', part'⟩ := start_and_part (.inl letter') unnamed' inner'
    exact ⟨⟨by rw [isAlphanumeric, letter', Bool.true_or], letter'.trans letter.symm, start'.trans start.symm,
      part'.trans part.symm⟩, part⟩
  · have number' : isLetterNumber (c + shift.offset).toNat = true := tableContains_of_leadsInto target hc
    have number : isLetterNumber c = true := Stride.tableContains_of_spans source above below step
    obtain ⟨start, part⟩ := start_and_part (.inr number) unnamed inner
    obtain ⟨start', part'⟩ := start_and_part (.inr number') unnamed' inner'
    obtain ⟨letter, -⟩ := isLetter_of_isLetterNumber number
    obtain ⟨letter', alphanumeric⟩ := isLetter_of_isLetterNumber number'
    exact ⟨⟨alphanumeric, letter'.trans letter.symm, start'.trans start.symm, part'.trans part.symm⟩, part⟩
  · rw [isAlphanumeric, isLetter, Stride.tableContains_of_clears letter above below,
      Stride.tableContains_of_clears numeral above below] at h
    cases h

private theorem apply_lowerShifts {c : CodePoint} (h : isAlphanumeric c = true) :
    SameKind c (ShiftRun.apply lowerShifts c) ∧ (isIdentifierPart c = false → ShiftRun.apply lowerShifts c = c) := by
  rcases apply_cases lowerShifts c with same | ⟨shift, hs, hc, moved⟩
  · exact ⟨same.symm ▸ .refl h, fun _ => same⟩
  · obtain ⟨kind, part⟩ := sameKind_moved (List.mem_append_left _ hs) hc h
    exact ⟨moved ▸ kind, fun misfit => by rw [part] at misfit; cases misfit⟩

private theorem apply_upperShifts {c : CodePoint} (h : isAlphanumeric c = true) :
    SameKind c (ShiftRun.apply upperShifts c) ∧ (isIdentifierPart c = false → ShiftRun.apply upperShifts c = c) := by
  rcases apply_cases upperShifts c with same | ⟨shift, hs, hc, moved⟩
  · exact ⟨same.symm ▸ .refl h, fun _ => same⟩
  · obtain ⟨kind, part⟩ := sameKind_moved (List.mem_append_right _ hs) hc h
    exact ⟨moved ▸ kind, fun misfit => by rw [part] at misfit; cases misfit⟩

end Moves

section Forms

/-- Whether a text is a letter or number in another case. It begins with one of the same kind, has nothing that
cannot stand in identifiers but the character itself, and beside letters and numbers nothing in uppercase. -/
structure IsForm (c : CodePoint) (form : Text) : Prop where
  head : ∃ d rest, form = d :: rest ∧ SameKind c d
  parts : isIdentifierPart c = true → ∀ d ∈ form, isIdentifierPart d = true
  misfit : isIdentifierPart c = false → form = [c]
  others : ∀ d ∈ form, isAlphanumeric d = true ∨ IsLowered d

private theorem SameKind.isForm {c d : CodePoint} (h : SameKind c d) (misfit : isIdentifierPart c = false → d = c) :
    IsForm c [d] where
  head := ⟨d, [], rfl, h⟩
  parts part := List.forall_mem_singleton.mpr (h.part.trans part)
  misfit no := congrArg ([·]) (misfit no)
  others := List.forall_mem_singleton.mpr (.inl h.alphanumeric)

/-- Whether a character is a letter that may stand anywhere in an identifier. -/
def isNaming (c : CodePoint) : Bool :=
  Stride.spans c c 1 letterTable && Stride.clears c c unnamedTable && Stride.clears c c innerTable

private theorem classes_of_isNaming {c : CodePoint} (h : isNaming c = true) :
    isLetter c = true ∧ isIdentifierStart c = true ∧ isIdentifierPart c = true := by
  simp only [isNaming, Bool.and_eq_true] at h
  obtain ⟨⟨letter, unnamed⟩, inner⟩ := h
  have letter : isLetter c = true :=
    Stride.tableContains_of_spans letter (Nat.le_refl c) (Nat.le_refl c) (by rw [Nat.sub_self, Nat.zero_mod])
  exact ⟨letter, start_and_part (.inl letter)
    (Stride.tableContains_of_clears unnamed (Nat.le_refl c) (Nat.le_refl c))
    (Stride.tableContains_of_clears inner (Nat.le_refl c) (Nat.le_refl c))⟩

private theorem isForm_of_isNaming {c d : CodePoint} {rest : Text} (hc : isNaming c = true) (hd : isNaming d = true)
    (hr : ∀ e ∈ rest, isIdentifierPart e = true ∧ (isAlphanumeric e = true ∨ IsLowered e)) :
    IsForm c (d :: rest) := by
  obtain ⟨letter, start, part⟩ := classes_of_isNaming hc
  obtain ⟨letter', start', part'⟩ := classes_of_isNaming hd
  have alphanumeric : isAlphanumeric d = true := by rw [isAlphanumeric, letter', Bool.true_or]
  exact ⟨⟨d, rest, rfl, alphanumeric, letter'.trans letter.symm, start'.trans start.symm, part'.trans part.symm⟩,
    fun _ => List.forall_mem_cons.mpr ⟨part', fun e he => (hr e he).1⟩,
    fun misfit => absurd (part.symm.trans misfit) Bool.noConfusion,
    List.forall_mem_cons.mpr ⟨.inl alphanumeric, fun e he => (hr e he).2⟩⟩

/-- Where several characters take the place of one, it is a letter, the first of them is one, and letters and marks
without case follow. -/
private theorem expansions : ∀ expansion ∈ upperExpansions, isNaming expansion.1 = true ∧
    ∃ d ∈ expansion.2.head?, isNaming d = true ∧ ∀ e ∈ expansion.2.tail,
      ((Stride.spans e e 1 markTable && Stride.clears e e unnamedTable && decide (IsLowered e)) || isNaming e) =
        true := by
  decide +kernel

/-- The uppercase form of a letter or number is such a form. -/
theorem isForm_upperOf {c : CodePoint} (h : isAlphanumeric c = true) : IsForm c (upperOf c) := by
  rw [upperOf]
  split
  · rename_i other expansion found
    have same : other = c := by simpa using List.find?_some found
    obtain ⟨letter, d, hd, head, tail⟩ := expansions _ (List.mem_of_find?_eq_some found)
    obtain ⟨rest, rfl⟩ := List.head?_eq_some_iff.mp hd
    refine isForm_of_isNaming (same ▸ letter) head fun e he => ?_
    rcases (Bool.or_eq_true _ _).mp (tail e he) with mark | naming
    · simp only [Bool.and_eq_true, decide_eq_true_eq] at mark
      obtain ⟨⟨mark, unnamed⟩, lowered⟩ := mark
      have mark : Stride.tableContains markTable e = true :=
        Stride.tableContains_of_spans mark (Nat.le_refl e) (Nat.le_refl e) (by rw [Nat.sub_self, Nat.zero_mod])
      refine ⟨?_, .inr lowered⟩
      rw [isIdentifierPart, mark, Stride.tableContains_of_clears unnamed (Nat.le_refl e) (Nat.le_refl e)]
      simp
    · obtain ⟨letter, -, part⟩ := classes_of_isNaming naming
      exact ⟨part, .inl (by rw [isAlphanumeric, letter, Bool.true_or])⟩
  · obtain ⟨kind, misfit⟩ := apply_upperShifts h
    exact kind.isForm misfit

/-- Whatever stands around it, the lowercase form of a letter or number is such a form. -/
theorem isForm_lowerAt {c : CodePoint} (h : isAlphanumeric c = true) (before after : Text) :
    IsForm c (lowerAt before c after) := by
  have special : ∀ d ∈ [capitalSigma, 0x3C2, 0x3C3, 0x130, 0x69], isNaming d = true := by decide +kernel
  simp only [List.forall_mem_cons] at special
  obtain ⟨sigma, final, inner, dotted, small, -⟩ := special
  rw [lowerAt]
  split
  · rename_i same
    subst same
    split
    · exact isForm_of_isNaming sigma final (List.forall_mem_nil _)
    · exact isForm_of_isNaming sigma inner (List.forall_mem_nil _)
  · split
    · rename_i same
      subst same
      exact isForm_of_isNaming dotted small (by decide +kernel)
    · obtain ⟨kind, misfit⟩ := apply_lowerShifts h
      exact kind.isForm misfit

end Forms

end Text

end Specimen
