import Mathlib
import Chronix.Model.Getdents
import Chronix.Soundness.Dentry

/-! # What a reader of `getdents64` sees

A program that calls `getdents64` reads the bytes it gets back as records, each `d_reclen`
bytes after the last: a header of `d_ino`, `d_off`, `d_reclen` and `d_type`, then the name up
to its NUL (`decodeDirent`, `decodeDirents`). The bytes `sys_getdents64` returns decode to one
record for each child it takes, from the file position on, in order (`direntsOf`): with the
child's inode number, its position, the rounded length and its name. The records' lengths add
up to the length returned. Successive calls on a buffer that holds every record list each child
once, then return 0 (`readdir_lists_each_child_once`).

`d_type` is `mode.bits() as u8`, the low byte of the mode, which holds permission bits; the
type a reader expects is `(mode & S_IFMT) >> 12` (`IFTODT`). A buffer too small for the next
record gets 0, the answer for the end of the directory, and not `EINVAL`.
-/

namespace Chronix

/-! ## Record lengths -/

/-- A child whose record `sys_getdents64` can write: a name without NUL bytes, short enough for
the 16 bits of `d_reclen`. -/
def ChildDentry.Listable (child : ChildDentry) : Prop :=
  (0 : UInt8) ∉ child.name ∧ child.name.length + 27 < 2 ^ 16

instance (child : ChildDentry) : Decidable child.Listable :=
  inferInstanceAs (Decidable ((0 : UInt8) ∉ child.name ∧ child.name.length + 27 < 2 ^ 16))

theorem recLen_eq {name : List UInt8} (short : name.length + 27 < 2 ^ 64) :
    recLen name = (name.length + 27) / 8 * 8 := by
  unfold recLen LEN_BEFORE_NAME
  rw [show 19 + (name.length + 1) + 7 = name.length + 27 by omega]
  exact Nat.and_two_pow_sub_eight short

/-- A record holds its header, the name and the NUL, and is a whole number of 8-byte words. -/
theorem recLen_bounds {name : List UInt8} (short : name.length + 27 < 2 ^ 64) :
    24 ≤ recLen name ∧ 20 + name.length ≤ recLen name ∧ recLen name < 2 ^ 16 + name.length ∧
      recLen name % 8 = 0 := by
  rw [recLen_eq short]
  omega

/-! ## Decoding -/

/-- A record of a `linux_dirent64` stream as a reader decodes it. -/
structure Dirent where
  d_ino : ℕ
  d_off : ℕ
  d_reclen : ℕ
  d_type : ℕ
  d_name : List UInt8
deriving DecidableEq, Repr

/-- Decode the record at the front of `bytes`: the header, and the name up to the first NUL among
the record's bytes after it. `none` where the bytes hold no record: a `d_reclen` that leaves no
room for a name or runs past the bytes, or no NUL in the record. -/
def decodeDirent (bytes : List UInt8) : Option Dirent :=
  if LEN_BEFORE_NAME < Nat.ofLeBytes ((bytes.drop 16).take 2) ∧
      Nat.ofLeBytes ((bytes.drop 16).take 2) ≤ bytes.length ∧
      (0 : UInt8) ∈ (bytes.take (Nat.ofLeBytes ((bytes.drop 16).take 2))).drop LEN_BEFORE_NAME then
    some ⟨Nat.ofLeBytes (bytes.take 8), Nat.ofLeBytes ((bytes.drop 8).take 8),
      Nat.ofLeBytes ((bytes.drop 16).take 2), Nat.ofLeBytes ((bytes.drop 18).take 1),
      ((bytes.take (Nat.ofLeBytes ((bytes.drop 16).take 2))).drop LEN_BEFORE_NAME).takeWhile
        (· ≠ 0)⟩
  else none

theorem reclen_of_decodeDirent {bytes : List UInt8} {d : Dirent}
    (decoded : decodeDirent bytes = some d) :
    LEN_BEFORE_NAME < d.d_reclen ∧ d.d_reclen ≤ bytes.length := by
  unfold decodeDirent at decoded
  split_ifs at decoded with found
  cases decoded
  exact ⟨found.1, found.2.1⟩

/-- Decode a whole stream, each record `d_reclen` bytes after the last. -/
def decodeDirents (bytes : List UInt8) : Option (List Dirent) :=
  if bytes = [] then some []
  else
    match decoded : decodeDirent bytes with
    | none => none
    | some d => (decodeDirents (bytes.drop d.d_reclen)).map (d :: ·)
termination_by bytes.length
decreasing_by
  have long := reclen_of_decodeDirent decoded
  unfold LEN_BEFORE_NAME at long
  rw [List.length_drop]
  omega

theorem decodeDirents_nil : decodeDirents [] = some [] := by
  rw [decodeDirents, if_pos rfl]

/-- One record at the front, then the rest of the stream. -/
theorem decodeDirents_of_decodeDirent {bytes : List UInt8} {d : Dirent}
    (decoded : decodeDirent bytes = some d) :
    decodeDirents bytes = (decodeDirents (bytes.drop d.d_reclen)).map (d :: ·) := by
  have nonempty : bytes ≠ [] := by
    have long := reclen_of_decodeDirent decoded
    unfold LEN_BEFORE_NAME at long
    intro empty
    rw [empty, List.length_nil] at long
    omega
  rw [decodeDirents, if_neg nonempty]
  split
  · rename_i missing
    rw [missing] at decoded
    cases decoded
  · rename_i d' found
    rw [found] at decoded
    cases decoded
    rfl

/-! ## Writing a record -/

@[simp]
theorem length_LinuxDirent64_bytes (d : LinuxDirent64) : d.bytes.length = 24 := by
  simp only [LinuxDirent64.bytes, List.length_append, Nat.length_leBytes, List.length_replicate]

/-- The header bytes before the name: the name is copied over the padding. -/
theorem take_LinuxDirent64_bytes (d : LinuxDirent64) :
    d.bytes.take LEN_BEFORE_NAME = Nat.leBytes 8 d.d_ino ++ Nat.leBytes 8 d.d_off ++
      Nat.leBytes 2 d.d_reclen ++ Nat.leBytes 1 d.d_type := by
  unfold LinuxDirent64.bytes LEN_BEFORE_NAME
  rw [List.take_append_of_le_length (by simp only [List.length_append, Nat.length_leBytes]; omega),
    List.take_of_length_le (by simp only [List.length_append, Nat.length_leBytes]; omega)]

/-- The three writes of a record into the buffer from its start: the header, the name over the
header's last bytes, and the NUL. What follows the NUL in the record is the rest of the header
or what the buffer had. -/
theorem writeRecord_front {T hdr name : List UInt8} {rec_len : ℕ} (hdrLen : hdr.length = 24)
    (room : 20 + name.length ≤ rec_len) (hdrRoom : 24 ≤ rec_len) (fits : rec_len ≤ T.length) :
    ∃ T₁ T₂ X, T.copyFromSlice? 0 24 hdr = some T₁ ∧
      T₁.copyFromSlice? 19 (19 + name.length) name = some T₂ ∧
      T₂.set? (19 + name.length) 0 = some (hdr.take 19 ++ name ++ 0 :: X ++ T.drop rec_len) ∧
      X.length = rec_len - 20 - name.length := by
  -- the header, then the buffer after 24 bytes
  have headerCopied : T.copyFromSlice? 0 24 hdr = some (hdr ++ T.drop 24) := by
    rw [List.copyFromSlice?_of_le (by omega) (by omega) (by omega), List.take_zero, List.nil_append]
  have nameCopied : (hdr ++ T.drop 24).copyFromSlice? 19 (19 + name.length) name =
      some (hdr.take 19 ++ name ++ (hdr ++ T.drop 24).drop (19 + name.length)) := by
    rw [List.copyFromSlice?_of_le (by omega) (by simp only [List.length_append, List.length_drop]; omega)
      (by omega), List.take_append_of_le_length (by omega)]
  have nulSet : (hdr.take 19 ++ name ++ (hdr ++ T.drop 24).drop (19 + name.length)).set?
      (19 + name.length) 0 =
        some (hdr.take 19 ++ name ++ 0 :: (hdr ++ T.drop 24).drop (20 + name.length)) := by
    have nameAt : (hdr.take 19 ++ name).length = 19 + name.length := by
      simp only [List.length_append, List.length_take, hdrLen]
      omega
    have inRecord : 19 + name.length < (hdr ++ T.drop 24).length := by
      simp only [List.length_append, List.length_drop]
      omega
    have afterName : (hdr ++ T.drop 24).drop (19 + name.length) =
        (hdr ++ T.drop 24)[19 + name.length] :: (hdr ++ T.drop 24).drop (20 + name.length) := by
      rw [show 20 + name.length = 19 + name.length + 1 by omega]
      exact List.drop_eq_getElem_cons _
    have framed : (hdr.take 19 ++ name ++ (hdr ++ T.drop 24).drop (19 + name.length)).set?
        (19 + name.length) 0 = (((hdr ++ T.drop 24).drop (19 + name.length)).set?
          (19 + name.length - (hdr.take 19 ++ name).length) 0).map (hdr.take 19 ++ name ++ ·) :=
      List.set?_append_right 0 (by rw [nameAt])
    rw [framed, nameAt, Nat.sub_self, afterName,
      List.set?_of_lt _ (by simp only [List.length_cons]; omega)]
    simp only [List.take_zero, List.nil_append, List.drop_succ_cons, List.drop_zero, Option.map_some,
      List.singleton_append, List.append_assoc]
  -- what is left of the record after the NUL, and the buffer after the record
  refine ⟨_, _, ((hdr ++ T.drop 24).drop (20 + name.length)).take (rec_len - 20 - name.length),
    headerCopied, nameCopied, ?_, ?_⟩
  · have tail : ((hdr ++ T.drop 24).drop (20 + name.length)).drop (rec_len - 20 - name.length) =
        T.drop rec_len := by
      rw [List.drop_drop, List.drop_append, List.drop_eq_nil_of_le (by omega), List.nil_append,
        List.drop_drop, hdrLen]
      congr 1
      omega
    have rest : (hdr ++ T.drop 24).drop (20 + name.length) =
        ((hdr ++ T.drop 24).drop (20 + name.length)).take (rec_len - 20 - name.length) ++
          T.drop rec_len := by
      rw [← tail, List.take_append_drop]
    rw [nulSet]
    conv_lhs => rw [rest]
    simp only [List.append_assoc, List.cons_append]
  · simp only [List.length_take, List.length_drop, List.length_append, hdrLen]
    omega

/-- A record laid out as `sys_getdents64` writes it decodes to its header fields and its name,
whatever follows the NUL. -/
theorem decodeDirent_record {a b c t : ℕ} {name X rest : List UInt8} (noNul : (0 : UInt8) ∉ name)
    (length : c = 20 + name.length + X.length) (small : c < 2 ^ 16) :
    decodeDirent (Nat.leBytes 8 a ++ Nat.leBytes 8 b ++ Nat.leBytes 2 c ++ Nat.leBytes 1 t ++
      name ++ 0 :: X ++ rest) = some ⟨a % 2 ^ 64, b % 2 ^ 64, c, t % 2 ^ 8, name⟩ := by
  set header := Nat.leBytes 8 a ++ Nat.leBytes 8 b ++ Nat.leBytes 2 c ++ Nat.leBytes 1 t
    with headerDef
  have headerLen : header.length = LEN_BEFORE_NAME := by
    simp only [headerDef, List.length_append, Nat.length_leBytes, LEN_BEFORE_NAME]
  -- each header field at its offset
  have ino : (header ++ name ++ 0 :: X ++ rest).take 8 = Nat.leBytes 8 a := by
    simp [headerDef]
  have off : ((header ++ name ++ 0 :: X ++ rest).drop 8).take 8 = Nat.leBytes 8 b := by
    simp [headerDef]
  have reclen : Nat.ofLeBytes (((header ++ name ++ 0 :: X ++ rest).drop 16).take 2) = c := by
    have field : ((header ++ name ++ 0 :: X ++ rest).drop 16).take 2 = Nat.leBytes 2 c := by
      simp [headerDef, List.drop_append, List.drop_eq_nil_of_le]
    rw [field, Nat.ofLeBytes_leBytes]
    exact Nat.mod_eq_of_lt small
  have type : ((header ++ name ++ 0 :: X ++ rest).drop 18).take 1 = Nat.leBytes 1 t := by
    simp [headerDef, List.drop_append, List.drop_eq_nil_of_le]
  -- the record's bytes after the header are the name, its NUL and the rest of the record
  have nameArea : ((header ++ name ++ 0 :: X ++ rest).take c).drop LEN_BEFORE_NAME =
      name ++ 0 :: X := by
    rw [show header ++ name ++ 0 :: X ++ rest = header ++ (name ++ 0 :: X) ++ rest by
        simp only [List.append_assoc],
      List.take_left' (by simp only [List.length_append, List.length_cons, headerLen,
        LEN_BEFORE_NAME]; omega),
      List.drop_left' headerLen]
  have named : (name ++ 0 :: X).takeWhile (· ≠ 0) = name := by
    rw [List.takeWhile_append_of_pos (fun byte mem => by
        simp only [ne_eq, decide_eq_true_eq]
        exact fun zero => noNul (zero ▸ mem)),
      List.takeWhile_cons_of_neg (by simp), List.append_nil]
  unfold decodeDirent
  rw [reclen, nameArea, if_pos ⟨by unfold LEN_BEFORE_NAME; omega,
    by simp only [List.length_append, List.length_cons, headerLen, LEN_BEFORE_NAME]; omega,
    by simp⟩, ino, off, type, named, Nat.ofLeBytes_leBytes, Nat.ofLeBytes_leBytes,
    Nat.ofLeBytes_leBytes]

/-! ## The loop -/

theorem SeekFile.seek_current_one (file : SeekFile) :
    file.seek (.Current 1) =
      .ok (usizeWrap (file.pos + 1), { file with pos := usizeWrap (file.pos + 1) }) := by
  rw [SeekFile.seek, if_neg (by decide)]
  rfl

/-- A child whose record fits: the record is written at `writen_len`, and the loop goes on past
it with the position one further. -/
theorem getdentsLoop_cons_of_fits {len : ℕ} {child : ChildDentry} {dents : List ChildDentry}
    {buf : List UInt8} {file : SeekFile} {w : ℕ} {inode : DirInode}
    (found : child.inode = some inode) (short : child.name.length + 27 < 2 ^ 64)
    (fits : w + recLen child.name ≤ len) (sized : buf.length = len) :
    ∃ X, X.length = recLen child.name - 20 - child.name.length ∧
      getdentsLoop len (child :: dents) buf file w =
        getdentsLoop len dents
          (buf.take w ++ (Nat.leBytes 8 (inode.ino % 2 ^ 64) ++ Nat.leBytes 8 (file.pos % 2 ^ 64) ++
            Nat.leBytes 2 (recLen child.name % 2 ^ 16) ++ Nat.leBytes 1 (inode.mode % 2 ^ 8) ++
            child.name ++ 0 :: X) ++ buf.drop (w + recLen child.name))
          { file with pos := usizeWrap (file.pos + 1) } (w + recLen child.name) := by
  obtain ⟨atLeast24, room, -, -⟩ := recLen_bounds short
  set dirent : LinuxDirent64 :=
    ⟨inode.ino % 2 ^ 64, file.pos % 2 ^ 64, recLen child.name % 2 ^ 16, inode.mode % 2 ^ 8⟩
    with direntDef
  obtain ⟨T₁, T₂, X, headerCopied, nameCopied, nulSet, XLen⟩ :=
    @writeRecord_front (buf.drop w) dirent.bytes child.name (recLen child.name)
      (length_LinuxDirent64_bytes _) room atLeast24 (by rw [List.length_drop]; omega)
  have prefixLen : (buf.take w).length = w := by
    rw [List.length_take]
    omega
  -- the writes through `buf_it`, the buffer from `writen_len` on
  have header : buf.copyFromSlice? w (w + 24) dirent.bytes = some (buf.take w ++ T₁) := by
    conv_lhs => rw [← List.take_append_drop w buf]
    rw [List.copyFromSlice?_append_right (by omega) (by omega), prefixLen, Nat.sub_self,
      Nat.add_sub_cancel_left, headerCopied, Option.map_some]
  have name : (buf.take w ++ T₁).copyFromSlice? (w + LEN_BEFORE_NAME)
      (w + LEN_BEFORE_NAME + (child.name.length + 1) - 1) child.name = some (buf.take w ++ T₂) := by
    rw [List.copyFromSlice?_append_right (by omega) (by omega), prefixLen,
      show w + LEN_BEFORE_NAME - w = 19 by unfold LEN_BEFORE_NAME; omega,
      show w + LEN_BEFORE_NAME + (child.name.length + 1) - 1 - w = 19 + child.name.length by
        unfold LEN_BEFORE_NAME; omega,
      nameCopied, Option.map_some]
  have nul : (buf.take w ++ T₂).set? (w + LEN_BEFORE_NAME + (child.name.length + 1) - 1) 0 =
      some (buf.take w ++ (dirent.bytes.take 19 ++ child.name ++ 0 :: X ++
        (buf.drop w).drop (recLen child.name))) := by
    rw [List.set?_append_right _ (by omega), prefixLen,
      show w + LEN_BEFORE_NAME + (child.name.length + 1) - 1 - w = 19 + child.name.length by
        unfold LEN_BEFORE_NAME; omega,
      nulSet, Option.map_some]
  have unfolded : getdentsLoop len (child :: dents) buf file w = (do
      let buf ← unwrap (buf.copyFromSlice? w (w + 24) dirent.bytes)
      let buf ← unwrap (buf.copyFromSlice? (w + LEN_BEFORE_NAME)
        (w + LEN_BEFORE_NAME + (child.name.length + 1) - 1) child.name)
      let buf ← unwrap (buf.set? (w + LEN_BEFORE_NAME + (child.name.length + 1) - 1) 0)
      getdentsLoop len dents buf { file with pos := usizeWrap (file.pos + 1) }
        (w + recLen child.name)) := by
    rw [getdentsLoop, found, Vfs.unwrap_some, pure_bind, if_neg (by omega),
      SeekFile.seek_current_one]
    rfl
  refine ⟨X, XLen, ?_⟩
  rw [unfolded, header, Vfs.unwrap_some, pure_bind, name, Vfs.unwrap_some, pure_bind, nul,
    Vfs.unwrap_some, pure_bind, List.drop_drop, show (19 : ℕ) = LEN_BEFORE_NAME from rfl,
    take_LinuxDirent64_bytes]
  simp only [List.append_assoc, List.cons_append]
  rfl

/-- A child whose record does not fit ends the loop with nothing more written. -/
theorem getdentsLoop_cons_of_not_fits {len : ℕ} {child : ChildDentry} {dents : List ChildDentry}
    {buf : List UInt8} {file : SeekFile} {w : ℕ} {inode : DirInode}
    (found : child.inode = some inode) (tooLong : len < w + recLen child.name) :
    getdentsLoop len (child :: dents) buf file w = pure (buf, file, w) := by
  rw [getdentsLoop, found, Vfs.unwrap_some, pure_bind, if_pos tooLong]

/-- A child without an inode panics in `child.inode().unwrap()`. -/
theorem getdentsLoop_cons_of_none {len : ℕ} {child : ChildDentry} {dents : List ChildDentry}
    {buf : List UInt8} {file : SeekFile} {w : ℕ} (missing : child.inode = none) :
    (getdentsLoop len (child :: dents) buf file w).run = none := by
  rw [getdentsLoop, missing]
  rfl

/-! ## The records the loop writes -/

/-- The records a reader decodes from what `sys_getdents64` writes for `children`, the first at
position `pos`; `none` where a child has no inode, where the source panics. -/
def direntsOf (pos : ℕ) : List ChildDentry → Option (List Dirent)
  | [] => some []
  | child :: children => do
    let inode ← child.inode
    let rest ← direntsOf (pos + 1) children
    pure (⟨inode.ino % 2 ^ 64, pos % 2 ^ 64, recLen child.name, inode.mode % 2 ^ 8, child.name⟩ ::
      rest)

theorem direntsOf_cons {pos : ℕ} {child : ChildDentry} {children : List ChildDentry}
    {inode : DirInode} (found : child.inode = some inode) :
    direntsOf pos (child :: children) = (direntsOf (pos + 1) children).map
      (⟨inode.ino % 2 ^ 64, pos % 2 ^ 64, recLen child.name, inode.mode % 2 ^ 8, child.name⟩ :: ·) := by
  rw [direntsOf, found, Option.bind_eq_bind, Option.bind_some]
  cases direntsOf (pos + 1) children <;> rfl

/-- A record as the loop writes it, then more bytes: the record, then what the rest decodes to. -/
theorem decodeDirents_record_append {ino off t : ℕ} {child : ChildDentry} {X rest : List UInt8}
    (listable : child.Listable) (filled : X.length = recLen child.name - 20 - child.name.length) :
    decodeDirents (Nat.leBytes 8 ino ++ Nat.leBytes 8 off ++ Nat.leBytes 2 (recLen child.name % 2 ^ 16) ++
      Nat.leBytes 1 t ++ child.name ++ 0 :: X ++ rest) =
      (decodeDirents rest).map
        (⟨ino % 2 ^ 64, off % 2 ^ 64, recLen child.name, t % 2 ^ 8, child.name⟩ :: ·) := by
  obtain ⟨noNul, short⟩ := listable
  obtain ⟨-, room, -, -⟩ := recLen_bounds (show child.name.length + 27 < 2 ^ 64 by omega)
  have small : recLen child.name < 2 ^ 16 := by
    rw [recLen_eq (by omega)]
    omega
  rw [Nat.mod_eq_of_lt small]
  rw [decodeDirents_of_decodeDirent (decodeDirent_record noNul
    (show recLen child.name = 20 + child.name.length + X.length by omega) small)]
  congr 2
  -- the next record starts `d_reclen` bytes on
  apply List.drop_left'
  simp only [List.length_append, Nat.length_leBytes, List.length_cons]
  omega

/-- The loop's run: it takes the first `k` children, writes their records one after the other
from `writen_len`, moves the position on by `k`, keeps the buffer before `writen_len`, and
stops at the end of the children or at the first record that does not fit. -/
theorem getdentsLoop_writes {len : ℕ} {dents : List ChildDentry} {buf : List UInt8}
    {file : SeekFile} {w : ℕ} (listable : ∀ c ∈ dents, c.Listable) (sized : buf.length = len)
    (start : w ≤ len) (posSmall : file.pos + dents.length < 2 ^ 64) {buf' : List UInt8}
    {file' : SeekFile} {w' : ℕ}
    (ran : (getdentsLoop len dents buf file w).run = some (.ok (buf', file', w'))) :
    ∃ k ≤ dents.length, w ≤ w' ∧ w' ≤ len ∧ buf'.length = len ∧ buf'.take w = buf.take w ∧
      decodeDirents ((buf'.drop w).take (w' - w)) = direntsOf file.pos (dents.take k) ∧
      file' = { file with pos := file.pos + k } ∧
      ∀ c, (dents.drop k).head? = some c → len < w' + recLen c.name := by
  induction dents generalizing buf file w with
  | nil =>
    -- no children left: nothing is written
    cases ran
    refine ⟨0, le_refl _, le_refl _, start, sized, rfl, ?_, rfl, fun c none => by cases none⟩
    rw [Nat.sub_self, List.take_zero, decodeDirents_nil]
    rfl
  | cons child dents ih =>
    cases found : child.inode with
    | none =>
      rw [getdentsLoop_cons_of_none found] at ran
      cases ran
    | some inode =>
      have childListable := listable child (List.mem_cons_self ..)
      have short : child.name.length + 27 < 2 ^ 64 := by
        have := childListable.2
        omega
      by_cases fits : w + recLen child.name ≤ len
      swap
      · -- the first record does not fit: the loop stops here
        rw [getdentsLoop_cons_of_not_fits found (by omega)] at ran
        cases ran
        refine ⟨0, Nat.zero_le _, le_refl _, start, sized, rfl, ?_, rfl, ?_⟩
        · rw [Nat.sub_self, List.take_zero, decodeDirents_nil]
          rfl
        · rintro c first
          cases first
          omega
      -- the record is written, and the loop goes on from the byte after it
      obtain ⟨X, filled, step⟩ :=
        @getdentsLoop_cons_of_fits len child dents buf file w inode found short fits sized
      obtain ⟨atLeast24, room, -, -⟩ := recLen_bounds short
      set record := Nat.leBytes 8 (inode.ino % 2 ^ 64) ++ Nat.leBytes 8 (file.pos % 2 ^ 64) ++
        Nat.leBytes 2 (recLen child.name % 2 ^ 16) ++ Nat.leBytes 1 (inode.mode % 2 ^ 8) ++
        child.name ++ 0 :: X with recordDef
      have recordLen : record.length = recLen child.name := by
        simp only [recordDef, List.length_append, Nat.length_leBytes, List.length_cons]
        omega
      have prefixLen : (buf.take w).length = w := by
        rw [List.length_take]
        omega
      have nextPos : usizeWrap (file.pos + 1) = file.pos + 1 := by
        unfold usizeWrap
        rw [List.length_cons] at posSmall
        omega
      rw [step, nextPos] at ran
      obtain ⟨k, kLe, after, within, resized, kept, decoded, moved, stopped⟩ :=
        ih (fun c mem => listable c (List.mem_cons_of_mem _ mem))
          (by simp only [List.length_append, List.length_drop, prefixLen, recordLen]; omega)
          fits (show file.pos + 1 + dents.length < 2 ^ 64 by rw [List.length_cons] at posSmall; omega)
          ran
      -- what the later records leave of the buffer up to the end of this one
      have upToRecord : buf'.take (w + recLen child.name) = buf.take w ++ record := by
        rw [kept]
        exact List.take_left' (by rw [List.length_append, prefixLen, recordLen])
      have ownRecord : (buf'.drop w).take (recLen child.name) = record := by
        have dropped : (buf'.take (w + recLen child.name)).drop w =
            (buf'.drop w).take (w + recLen child.name - w) := List.drop_take
        rw [Nat.add_sub_cancel_left, upToRecord, List.drop_left' prefixLen] at dropped
        exact dropped.symm
      refine ⟨k + 1, by simp only [List.length_cons]; omega, by omega, within, resized, ?_, ?_, ?_,
        ?_⟩
      · -- the bytes before `writen_len` are never written
        have front := congrArg (List.take w) upToRecord
        rw [List.take_take, Nat.min_eq_left (by omega), List.take_left' prefixLen] at front
        exact front
      · -- this record, then the records of the later children
        have split : (buf'.drop w).take (w' - w) =
            record ++ (buf'.drop (w + recLen child.name)).take (w' - (w + recLen child.name)) := by
          rw [show w' - w = recLen child.name + (w' - (w + recLen child.name)) by omega,
            List.take_add, ownRecord, List.drop_drop]
        rw [split, recordDef, decodeDirents_record_append childListable filled, decoded,
          List.take_succ_cons, direntsOf_cons found]
        simp only [Nat.mod_mod]
      · rw [moved]
        dsimp only
        congr 1
        omega
      · exact stopped

/-! ## `sys_getdents64` -/

/-- A run of `x >>= f` that succeeds is a run of `x` that succeeds followed by one of `f`. -/
theorem ExceptT.bind_run_eq_some_ok {ε α β : Type} {x : ExceptT ε Option α}
    {f : α → ExceptT ε Option β} {b : β} (ran : (x >>= f).run = some (.ok b)) :
    ∃ a, x.run = some (.ok a) ∧ (f a).run = some (.ok b) := by
  simp only [ExceptT.run_bind] at ran
  change (x.run).bind _ = _ at ran
  rw [Option.bind_eq_some_iff] at ran
  obtain ⟨result, first, rest⟩ := ran
  cases result with
  | error e => cases rest
  | ok a => exact ⟨a, first, rest⟩

/-- On a readable buffer, a file and its dentry, `sys_getdents64` is its loop over the children
from the position, with nothing written yet. -/
theorem sys_getdents64_eq {buf : List UInt8} {file : SeekFile} {dentry : DirDentry}
    {dents : List ChildDentry} (loaded : dentry.load_child_dentry = .ok dents) :
    sys_getdents64 (some buf) (.ok file) (some dentry) =
      getdentsLoop buf.length (dents.drop file.pos) buf file 0 >>= fun written =>
        pure (written.2.2, written.1, written.2.1) := by
  have lifted : ∀ {α : Type} (a : α),
      (ExceptT.mk (some (.ok a)) : ExceptT SysError Option α) = pure a := fun _ => rfl
  simp only [sys_getdents64, lifted, Vfs.unwrap_some, pure_bind, loaded]

/-- `sys_getdents64` on a directory whose children can all be listed: the bytes it returns decode
to the records of the next `k` children from the position, the position moves on by `k`, and
the length returned is at most the buffer's. It stops before the last child only at a record
the buffer cannot hold. -/
theorem sys_getdents64_writes {buf : List UInt8} {file : SeekFile} {dentry : DirDentry}
    {dents : List ChildDentry} (loaded : dentry.load_child_dentry = .ok dents)
    (listable : ∀ c ∈ dents, c.Listable) (posSmall : file.pos + dents.length < 2 ^ 64)
    {n : ℕ} {buf' : List UInt8} {file' : SeekFile}
    (ran : (sys_getdents64 (some buf) (.ok file) (some dentry)).run = some (.ok (n, buf', file'))) :
    ∃ k ≤ (dents.drop file.pos).length, n ≤ buf.length ∧ buf'.length = buf.length ∧
      decodeDirents (buf'.take n) = direntsOf file.pos ((dents.drop file.pos).take k) ∧
      file' = { file with pos := file.pos + k } ∧
      ∀ c, ((dents.drop file.pos).drop k).head? = some c → buf.length < n + recLen c.name := by
  rw [sys_getdents64_eq loaded] at ran
  obtain ⟨⟨buf₁, file₁, w₁⟩, looped, returned⟩ := ExceptT.bind_run_eq_some_ok ran
  cases returned
  obtain ⟨k, kLe, -, within, sized, -, decoded, moved, stopped⟩ :=
    getdentsLoop_writes (fun c mem => listable c (List.mem_of_mem_drop mem)) rfl (Nat.zero_le _)
      (by rw [List.length_drop]; omega) looped
  rw [Nat.sub_zero, List.drop_zero] at decoded
  exact ⟨k, kLe, within, sized, decoded, moved, by simpa only [Nat.zero_add] using stopped⟩

/-- A buffer too small for the record at the position gets 0, with nothing written and the
position kept: the answer for the end of the directory, where Linux answers `EINVAL`. -/
theorem sys_getdents64_of_small_buffer {buf : List UInt8} {file : SeekFile} {dentry : DirDentry}
    {dents : List ChildDentry} (loaded : dentry.load_child_dentry = .ok dents)
    {child : ChildDentry} {inode : DirInode} (next : (dents.drop file.pos).head? = some child)
    (found : child.inode = some inode) (small : buf.length < recLen child.name) :
    (sys_getdents64 (some buf) (.ok file) (some dentry)).run = some (.ok (0, buf, file)) := by
  obtain ⟨rest, children⟩ : ∃ rest, dents.drop file.pos = child :: rest := by
    cases after : dents.drop file.pos with
    | nil => rw [after] at next; cases next
    | cons first rest =>
      rw [after] at next
      cases next
      exact ⟨rest, rfl⟩
  rw [sys_getdents64_eq loaded, children,
    getdentsLoop_cons_of_not_fits found (by rw [Nat.zero_add]; exact small), pure_bind]
  rfl

/-- A stream that decodes to no records is empty. -/
theorem eq_nil_of_decodeDirents {bytes : List UInt8} (decoded : decodeDirents bytes = some []) :
    bytes = [] := by
  by_contra nonempty
  rw [decodeDirents, if_neg nonempty] at decoded
  split at decoded
  · cases decoded
  · rename_i d found
    cases rest : decodeDirents (bytes.drop d.d_reclen) with
    | none =>
      rw [rest] at decoded
      cases decoded
    | some records =>
      rw [rest, Option.map_some] at decoded
      cases decoded

/-- Children that all have inodes have a record each. -/
theorem exists_direntsOf {pos : ℕ} {children : List ChildDentry}
    (inodes : ∀ c ∈ children, c.inode ≠ none) :
    ∃ records, direntsOf pos children = some records ∧ records.length = children.length := by
  induction children generalizing pos with
  | nil => exact ⟨[], rfl, rfl⟩
  | cons child children ih =>
    obtain ⟨inode, found⟩ := Option.ne_none_iff_exists'.mp (inodes child (List.mem_cons_self ..))
    obtain ⟨records, listed, counted⟩ :=
      @ih (pos + 1) (fun c mem => inodes c (List.mem_cons_of_mem _ mem))
    rw [direntsOf_cons found, listed, Option.map_some]
    exact ⟨_, rfl, by rw [List.length_cons, List.length_cons, counted]⟩

/-- The records of two runs of children, one after the other. -/
theorem direntsOf_append (pos : ℕ) (first second : List ChildDentry) :
    direntsOf pos (first ++ second) = (direntsOf pos first).bind fun records =>
      (direntsOf (pos + first.length) second).map (records ++ ·) := by
  induction first generalizing pos with
  | nil =>
    rw [List.nil_append, List.length_nil, Nat.add_zero, direntsOf, Option.bind_some]
    cases direntsOf pos second <;> rfl
  | cons child first ih =>
    cases found : child.inode with
    | none =>
      rw [List.cons_append, direntsOf, found, direntsOf, found]
      rfl
    | some inode =>
      rw [List.cons_append, direntsOf_cons found, direntsOf_cons found, ih, List.length_cons,
        show pos + 1 + first.length = pos + (first.length + 1) by omega]
      cases direntsOf (pos + 1) first <;> cases direntsOf (pos + (first.length + 1)) second <;> rfl

/-- The loop succeeds whenever every child it reaches has an inode. -/
theorem getdentsLoop_succeeds {len : ℕ} {dents : List ChildDentry} {buf : List UInt8}
    {file : SeekFile} {w : ℕ} (listable : ∀ c ∈ dents, c.Listable)
    (inodes : ∀ c ∈ dents, c.inode ≠ none) (sized : buf.length = len) :
    ∃ written, (getdentsLoop len dents buf file w).run = some (.ok written) := by
  induction dents generalizing buf file w with
  | nil => exact ⟨_, rfl⟩
  | cons child dents ih =>
    obtain ⟨inode, found⟩ := Option.ne_none_iff_exists'.mp (inodes child (List.mem_cons_self ..))
    have short : child.name.length + 27 < 2 ^ 64 := by
      have := (listable child (List.mem_cons_self ..)).2
      omega
    by_cases fits : w + recLen child.name ≤ len
    · obtain ⟨X, filled, step⟩ :=
        @getdentsLoop_cons_of_fits len child dents buf file w inode found short fits sized
      obtain ⟨atLeast24, room, -, -⟩ := recLen_bounds short
      rw [step]
      apply ih (fun c mem => listable c (List.mem_cons_of_mem _ mem))
        (fun c mem => inodes c (List.mem_cons_of_mem _ mem))
      simp only [List.length_append, List.length_take, List.length_drop, Nat.length_leBytes,
        List.length_cons]
      omega
    · rw [getdentsLoop_cons_of_not_fits found (by omega)]
      exact ⟨_, rfl⟩

/-- Successive calls of `sys_getdents64` on one directory, each with a buffer of `len` zero bytes,
from the open file `file`, at most `calls` of them: the records the calls return, in order, up
to the first call that returns 0; `none` where a call fails or the calls run out. -/
def readdir (dentry : DirDentry) (len : ℕ) : ℕ → SeekFile → Option (List Dirent)
  | 0, _ => none
  | calls + 1, file =>
    match (sys_getdents64 (some (List.replicate len 0)) (.ok file) (some dentry)).run with
    | some (.ok (n, buf, file')) =>
      if n = 0 then some []
      else (decodeDirents (buf.take n)).bind fun records =>
        (readdir dentry len calls file').map (records ++ ·)
    | _ => none

/-- Successive calls with a buffer that holds every record list each child from the position
once, in order, and then return 0. -/
theorem readdir_lists_each_child_once {dentry : DirDentry} {dents : List ChildDentry}
    (loaded : dentry.load_child_dentry = .ok dents) (listable : ∀ c ∈ dents, c.Listable)
    (inodes : ∀ c ∈ dents, c.inode ≠ none) {len : ℕ} (roomy : ∀ c ∈ dents, recLen c.name ≤ len)
    (few : 2 * dents.length < 2 ^ 64) {calls pos size : ℕ} (inside : pos ≤ dents.length)
    (enough : dents.length - pos < calls) :
    readdir dentry len calls ⟨pos, size⟩ = direntsOf pos (dents.drop pos) := by
  induction calls generalizing pos with
  | zero => omega
  | succ calls ih =>
    obtain ⟨⟨buf₁, file₁, w₁⟩, looped⟩ :=
      @getdentsLoop_succeeds len (dents.drop pos) (List.replicate len 0) ⟨pos, size⟩ 0
      (fun c mem => listable c (List.mem_of_mem_drop mem))
      (fun c mem => inodes c (List.mem_of_mem_drop mem)) (List.length_replicate ..)
    have ran : (sys_getdents64 (some (List.replicate len 0)) (.ok ⟨pos, size⟩) (some dentry)).run =
        some (.ok (w₁, buf₁, file₁)) := by
      rw [sys_getdents64_eq loaded, List.length_replicate]
      simp only [ExceptT.run_bind]
      change (Option.bind _ _) = _
      rw [looped]
      rfl
    obtain ⟨k, kLe, within, sized, decoded, moved, stopped⟩ :=
      sys_getdents64_writes loaded listable (show pos + dents.length < 2 ^ 64 by omega) ran
    rw [List.length_replicate] at within sized
    simp only [List.length_replicate] at stopped
    dsimp only at kLe moved stopped
    rw [List.length_drop] at kLe
    have written : (buf₁.take w₁).length = w₁ := by
      rw [List.length_take]
      omega
    rw [readdir, ran]
    dsimp only
    obtain ⟨records, listed, counted⟩ := @exists_direntsOf pos ((dents.drop pos).take k)
      (fun c mem => inodes c (List.mem_of_mem_drop (List.mem_of_mem_take mem)))
    rw [listed] at decoded
    by_cases none : k = 0
    · -- no record fits, so there is no child left: the call returns 0
      subst none
      rw [List.take_zero, List.length_nil, List.length_eq_zero_iff] at counted
      subst counted
      have zero : w₁ = 0 := by
        rw [← written, eq_nil_of_decodeDirents decoded, List.length_nil]
      have finished : dents.drop pos = [] := by
        cases after : dents.drop pos with
        | nil => rfl
        | cons c rest =>
          have tooLong := stopped c (by rw [List.drop_zero, after]; rfl)
          have member : c ∈ dents.drop pos := by
            rw [after]
            exact List.mem_cons_self ..
          have fits := roomy c (List.mem_of_mem_drop member)
          omega
      rw [if_pos zero, finished]
      rfl
    · -- some records are written; the next call starts after them
      have someWritten : w₁ ≠ 0 := by
        intro zero
        rw [zero, List.take_zero, decodeDirents_nil] at decoded
        cases decoded
        rw [List.length_nil, List.length_take, List.length_drop] at counted
        omega
      rw [if_neg someWritten, decoded, Option.bind_some, moved, ih (by omega) (by omega)]
      conv_rhs => rw [← List.take_append_drop k (dents.drop pos)]
      rw [direntsOf_append, listed, Option.bind_some, List.drop_drop, List.length_take,
        Nat.min_eq_left (by rw [List.length_drop]; omega)]

/-! ## The record type and the end of the directory -/

/-- The `d_type` a reader expects of a mode, as Linux's `IFTODT` computes it: the file-type bits,
shifted down. -/
def IFTODT (mode : ℕ) : ℕ := (mode &&& InodeMode.TYPE_MASK) >>> 12

/-- Every record `sys_getdents64` returns is the record `direntsOf` gives its child, whose
`d_type` is the low byte of the mode; and a buffer too small for the next record is answered
with 0, nothing written and the position kept. -/
theorem sys_getdents64_types_from_mode_low_byte :
    (∀ (buf : List UInt8) (file : SeekFile) (dentry : DirDentry) (dents : List ChildDentry)
      (n : ℕ) (buf' : List UInt8) (file' : SeekFile),
      dentry.load_child_dentry = .ok dents → (∀ c ∈ dents, c.Listable) →
      file.pos + dents.length < 2 ^ 64 →
      (sys_getdents64 (some buf) (.ok file) (some dentry)).run = some (.ok (n, buf', file')) →
      ∃ k ≤ (dents.drop file.pos).length,
        decodeDirents (buf'.take n) = direntsOf file.pos ((dents.drop file.pos).take k)) ∧
    (∀ (buf : List UInt8) (file : SeekFile) (dentry : DirDentry) (dents : List ChildDentry)
      (child : ChildDentry) (inode : DirInode),
      dentry.load_child_dentry = .ok dents → (dents.drop file.pos).head? = some child →
      child.inode = some inode → buf.length < recLen child.name →
      (sys_getdents64 (some buf) (.ok file) (some dentry)).run = some (.ok (0, buf, file))) := by
  refine ⟨?decodes, ?small⟩
  case decodes =>
    intro buf file dentry dents n buf' file' loaded listable posSmall ran
    obtain ⟨k, kLe, -, -, decoded, -, -⟩ := sys_getdents64_writes loaded listable posSmall ran
    exact ⟨k, kLe, decoded⟩
  case small =>
    intro buf file dentry dents child inode loaded next found small
    exact sys_getdents64_of_small_buffer loaded next found small

/-- A directory with one subdirectory `a` as `sys_mkdirat` makes it, of mode `InodeMode::DIR`: a
24-byte buffer gets its record with `d_type` 0 (`DT_UNKNOWN`) where `IFTODT` gives 4 (`DT_DIR`),
and a 16-byte buffer gets 0. -/
theorem sys_getdents64_lists_subdirectory_as_unknown_type :
    (∃ k ≤ 1, decodeDirents ([5, 0, 0, 0, 0, 0, 0, 0, 0, 0, 0, 0, 0, 0, 0, 0, 24, 0, 0, 97, 0, 0,
        0, 0].take 24) = direntsOf 0 ([⟨[97], .USED, some ⟨5, 0o40000⟩⟩].take k)) ∧
      direntsOf 0 [⟨[97], .USED, some ⟨5, 0o40000⟩⟩] = some [⟨5, 0, 24, 0, [97]⟩] ∧
      IFTODT 0o40000 = 4 ∧
      (sys_getdents64 (some (List.replicate 16 0)) (.ok ⟨0, 0⟩)
        (some ⟨some ⟨1, 0o40000⟩, [⟨[97], .USED, some ⟨5, 0o40000⟩⟩]⟩)).run =
        some (.ok (0, List.replicate 16 0, ⟨0, 0⟩)) :=
  ⟨sys_getdents64_types_from_mode_low_byte.1 (List.replicate 24 0) ⟨0, 0⟩
      ⟨some ⟨1, 0o40000⟩, [⟨[97], .USED, some ⟨5, 0o40000⟩⟩]⟩ [⟨[97], .USED, some ⟨5, 0o40000⟩⟩] 24
      [5, 0, 0, 0, 0, 0, 0, 0, 0, 0, 0, 0, 0, 0, 0, 0, 24, 0, 0, 97, 0, 0, 0, 0] ⟨1, 0⟩
      (by decide) (by decide) (by decide) (by decide),
    by decide, by decide,
    sys_getdents64_types_from_mode_low_byte.2 (List.replicate 16 0) ⟨0, 0⟩
      ⟨some ⟨1, 0o40000⟩, [⟨[97], .USED, some ⟨5, 0o40000⟩⟩]⟩ [⟨[97], .USED, some ⟨5, 0o40000⟩⟩]
      ⟨[97], .USED, some ⟨5, 0o40000⟩⟩ ⟨5, 0o40000⟩ (by decide) (by decide) rfl (by decide)⟩

end Chronix
