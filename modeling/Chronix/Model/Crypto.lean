import Mathlib
import Chronix.Model.SysError

/-! # The control message of an `AF_ALG` socket

`encode` (`os/src/net/crypto.rs`) reads the control bytes that `sendmsg` passes to an `AF_ALG`
socket with its inner `cmsghdr_from_bytes`: a `cmsghdr` of at least 16 bytes, whose `cmsg_len`
is the first 8 bytes, read as a little-endian `usize` and cut to `u32`, and whose level and type
are the two `i32` after it. For a `SOL_ALG` header that does not carry a `SOL_ALG` type, the
function goes on to read an IV: its length at `size_of::<Cmsghdr>()`, and its bytes after that.
The size of `Cmsghdr` is a choice of the compiler's layout and is a parameter of the model.

The slice the function returns is the pair of its bounds in the control bytes, and the empty
slice `&[]` is the pair `(0, 0)`. The types under the levels other than `SOL_ALG` are decoded by
tables that nothing reads; the model keeps their raw value.
-/

namespace Chronix

/-- The number a little-endian list of bytes stands for. -/
def decodeLE (bytes : List UInt8) : ℕ := bytes.foldr (fun byte rest => byte.toNat + 256 * rest) 0

/-- `&bytes[start..stop]`, for bounds within `bytes`. -/
def sliceBytes (bytes : List UInt8) (start stop : ℕ) : List UInt8 := (bytes.drop start).take (stop - start)

/-- `i32::from_ne_bytes` on a little-endian machine: the two's complement of four bytes. -/
def decodeI32 (bytes : List UInt8) : ℤ :=
  let value := decodeLE bytes
  if value < 2 ^ 31 then value else value - 2 ^ 32

/-- `CmsgLevel`. -/
inductive CmsgLevel
  | SolSocket
  | IpProtoIp
  | IpProtoIpv6
  | SolAlg
  | Unknown
deriving DecidableEq, Repr

/-- `CmsgLevel::from(i32)`. -/
def CmsgLevel.ofRaw : ℤ → CmsgLevel
  | 1 => .SolSocket
  | 0 => .IpProtoIp
  | 41 => .IpProtoIpv6
  | 279 => .SolAlg
  | _ => .Unknown

/-- `CmsgTypeSolAlg`. -/
inductive CmsgTypeSolAlg
  | AlgSetOp
  | AlgSetIv
  | AlgSetAeadAssoc
  | AlgSetAeadAuthSize
  | Unknown
deriving DecidableEq, Repr

/-- `CmsgTypeSolAlg::from(i32)`. -/
def CmsgTypeSolAlg.ofRaw : ℤ → CmsgTypeSolAlg
  | 3 => .AlgSetOp
  | 2 => .AlgSetIv
  | 4 => .AlgSetAeadAssoc
  | 5 => .AlgSetAeadAuthSize
  | _ => .Unknown

/-- `CmsgType`, with the raw type under the levels whose tables nothing reads. -/
inductive CmsgType
  | SolSocket (raw : ℤ)
  | IpProtoIp (raw : ℤ)
  | IpProtoIpv6 (raw : ℤ)
  | SolAlg (type : CmsgTypeSolAlg)
  | Unknown (level : CmsgLevel) (raw : ℤ)
deriving DecidableEq, Repr

/-- `CmsgType::parse(level_raw, type_raw)`. -/
def CmsgType.parse (levelRaw typeRaw : ℤ) : CmsgType :=
  match CmsgLevel.ofRaw levelRaw with
  | .SolSocket => .SolSocket typeRaw
  | .IpProtoIp => .IpProtoIp typeRaw
  | .IpProtoIpv6 => .IpProtoIpv6 typeRaw
  | .SolAlg => .SolAlg (CmsgTypeSolAlg.ofRaw typeRaw)
  | .Unknown => .Unknown .Unknown typeRaw

/-- `Cmsghdr`, with `cmsg_len` a `u32`. -/
structure Cmsghdr where
  cmsg_len : ℕ
  cmsg_level : CmsgLevel
  cmsg_type : CmsgType
deriving DecidableEq, Repr

/-- `cmsghdr_from_bytes(bytes)`, for a `Cmsghdr` of `cmsghdrSize` bytes: the header and the
bounds of the IV in `bytes`. `none` is the panic of a slice past the end of `bytes`. -/
def cmsghdrFromBytes (cmsghdrSize : ℕ) (bytes : List UInt8) :
    Option (Except SysError (Cmsghdr × ℕ × ℕ)) :=
  if bytes.length < 16 then some (.error .EFAULT)
  else
    let cmsgLen := decodeLE (sliceBytes bytes 0 8)
    let rawLevel := decodeI32 (sliceBytes bytes 8 12)
    let rawType := decodeI32 (sliceBytes bytes 12 16)
    let cmsghdr : Cmsghdr :=
      ⟨cmsgLen % 2 ^ 32, CmsgLevel.ofRaw rawLevel, CmsgType.parse rawLevel rawType⟩
    if cmsghdr.cmsg_level ≠ .SolAlg then some (.ok (cmsghdr, 0, 0))
    else
      match cmsghdr.cmsg_type with
      | .SolAlg _ => some (.ok (cmsghdr, 0, 0))
      | _ =>
        let ivOffset := cmsghdrSize
        if cmsghdr.cmsg_len < ivOffset + 4 then some (.error .EINVAL)
        else if bytes.length < ivOffset + 4 then some (.error .EFAULT)
        else
          let ivlen := decodeLE (sliceBytes bytes ivOffset (ivOffset + 4))
          let ivStart := ivOffset + 4
          let ivEnd := ivStart + ivlen
          -- `&bytes[iv_start..iv_end]` is taken before the bounds are checked
          if bytes.length < ivEnd then none
          else if cmsghdr.cmsg_len < ivEnd % 2 ^ 32 then some (.error .EINVAL)
          else if bytes.length < ivEnd then some (.error .EFAULT)
          else some (.ok (cmsghdr, ivStart, ivEnd))

end Chronix
