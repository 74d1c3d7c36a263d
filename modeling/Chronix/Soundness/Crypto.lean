import Mathlib
import Chronix.Model.Crypto

/-! # The `AF_ALG` control-message parser is total

`CmsgType::parse` decodes the level again from the same raw value, so a header at level
`SOL_ALG` always carries a `SOL_ALG` type (`parse_of_solAlg`). The `if let` after the level test
then always returns, and the part of `cmsghdr_from_bytes` that reads an IV, with the slice it
takes before checking the bounds, is never reached: the parser refuses fewer than 16 bytes with
`EFAULT` and otherwise returns the header with the empty IV (`cmsghdrFromBytes_eq`), whatever
the layout of `Cmsghdr`.
-/

namespace Chronix

/-- A raw level that decodes to `SOL_ALG` gives a `SOL_ALG` type. -/
theorem CmsgType.parse_of_solAlg {levelRaw : ℤ} (solAlg : CmsgLevel.ofRaw levelRaw = .SolAlg)
    (typeRaw : ℤ) : CmsgType.parse levelRaw typeRaw = .SolAlg (CmsgTypeSolAlg.ofRaw typeRaw) := by
  rw [CmsgType.parse, solAlg]

/-- The header that `cmsghdr_from_bytes` reads from the first 16 bytes. -/
def headerOf (bytes : List UInt8) : Cmsghdr :=
  let rawLevel := decodeI32 (sliceBytes bytes 8 12)
  ⟨decodeLE (sliceBytes bytes 0 8) % 2 ^ 32, CmsgLevel.ofRaw rawLevel,
    CmsgType.parse rawLevel (decodeI32 (sliceBytes bytes 12 16))⟩

/-- `cmsghdr_from_bytes` refuses fewer than 16 bytes and otherwise returns the header with the
empty IV. -/
theorem cmsghdrFromBytes_eq (cmsghdrSize : ℕ) (bytes : List UInt8) :
    cmsghdrFromBytes cmsghdrSize bytes =
      if bytes.length < 16 then some (.error .EFAULT) else some (.ok (headerOf bytes, 0, 0)) := by
  unfold cmsghdrFromBytes headerOf
  split_ifs with short
  · rfl
  · dsimp only
    by_cases solAlg : CmsgLevel.ofRaw (decodeI32 (sliceBytes bytes 8 12)) = .SolAlg
    · -- at level `SOL_ALG` the type is a `SOL_ALG` type, and the `if let` returns
      rw [if_neg (not_not.mpr solAlg), CmsgType.parse_of_solAlg solAlg]
    · rw [if_pos solAlg]

/-- For every control buffer and every layout of `Cmsghdr`, `cmsghdr_from_bytes` does not
panic, and an IV it returns lies within the buffer and within `cmsg_len`. -/
theorem cmsghdrFromBytes_total (cmsghdrSize : ℕ) (bytes : List UInt8) :
    ∃ result, cmsghdrFromBytes cmsghdrSize bytes = some result ∧
      ∀ hdr ivStart ivEnd, result = .ok (hdr, ivStart, ivEnd) →
        ivStart ≤ ivEnd ∧ ivEnd ≤ bytes.length ∧ ivEnd ≤ hdr.cmsg_len := by
  rw [cmsghdrFromBytes_eq]
  split_ifs
  · exact ⟨_, rfl, fun _ _ _ refused => by cases refused⟩
  · refine ⟨_, rfl, fun hdr ivStart ivEnd parsed => ?_⟩
    simp only [Except.ok.injEq, Prod.mk.injEq] at parsed
    obtain ⟨-, rfl, rfl⟩ := parsed
    exact ⟨le_rfl, Nat.zero_le _, Nat.zero_le _⟩

end Chronix
