import Arm64Emu.Dialogue
import Arm64Emu.HashTable
import Arm64Emu.P9Path

/-! The 9p device (`virtio_9p.c`): fid table, handlers and dispatch. A handler is a program
of host calls; it ends with the reply under construction, or with the error code that
`mk_lerror` is given, and the device state. -/
namespace Arm64Emu

inductive AccMode
  | rdonly | wronly | rdwr
  deriving DecidableEq, Repr

/-- The flags of a host `open`. -/
structure OpenFlags where
  acc : AccMode
  creat : Bool
  excl : Bool
  trunc : Bool
  append : Bool
  nonblock : Bool
  nofollow : Bool
  deriving DecidableEq, Repr

structure Stat where
  mode : U32
  uid : U32
  gid : U32
  nlink : U64
  rdev : U64
  size : U64
  blksize : U64
  blocks : U64
  atim : U64 × U64
  mtim : U64 × U64
  ctim : U64 × U64
  dev : U64
  ino : U64
  deriving DecidableEq, Repr

structure StatFs where
  type : U32
  bsize : U32
  blocks : U64
  bfree : U64
  bavail : U64
  files : U64
  ffree : U64
  fsid : U64
  namelen : U32
  deriving DecidableEq, Repr

structure DirEnt where
  name : Bytes
  dtype : U8
  ino : U64
  deriving DecidableEq, Repr

/-- How `utimensat` sets a time stamp. -/
inductive TimeSet
  | omit | now | at (sec nsec : U64)
  deriving DecidableEq, Repr

/-- The host calls that the handlers make. Descriptors and directory streams are numbers. -/
inductive HostCall
  | lstat (path : Bytes)
  | openFile (path : Bytes) (flags : OpenFlags) (mode : U32)
  | close (fd : ℕ)
  | fstat (fd : ℕ)
  | pread (fd : ℕ) (count : ℕ) (off : U64)
  | pwrite (fd : ℕ) (data : Bytes) (off : U64)
  | fsync (fd : ℕ) (datasync : Bool)
  | opendir (path : Bytes)
  | closedir (dir : ℕ)
  | rewinddir (dir : ℕ)
  | seekdir (dir : ℕ) (pos : U64)
  | telldir (dir : ℕ)
  | readdir (dir : ℕ)
  | statfs (path : Bytes)
  | readlink (path : Bytes)
  | mkdir (path : Bytes) (mode : U32)
  | mknod (path : Bytes) (mode major minor : U32)
  | symlink (target path : Bytes)
  | link (old new : Bytes)
  | rename (old new : Bytes)
  | unlink (path : Bytes)
  | rmdir (path : Bytes)
  | remove (path : Bytes)
  | chmod (path : Bytes) (mode : U32)
  | lchown (path : Bytes) (uid gid : Option U32)
  | truncate (path : Bytes) (size : U64)
  | utimensat (path : Bytes) (atime mtime : TimeSet)
  deriving DecidableEq, Repr

namespace HostCall

/-- What a call answers: `errno`, or the result. -/
def Reply : HostCall → Type
  | lstat _ => Except Errno Stat
  | openFile .. => Except Errno ℕ
  | close _ => Unit
  | fstat _ => Stat
  | pread .. => Except Errno Bytes
  | pwrite .. => Except Errno U32
  | opendir _ => Except Errno ℕ
  | closedir _ => Unit
  | rewinddir _ => Unit
  | seekdir .. => Unit
  | telldir _ => U64
  | readdir _ => Option DirEnt
  | statfs _ => Except Errno StatFs
  | readlink _ => Except Errno Bytes
  | _ => Except Errno Unit

end HostCall

abbrev Host (α : Type) := Dialogue HostCall.Reply α

structure P9Fid where
  fid : U32
  fd : Option ℕ
  dir : Option ℕ
  path : Bytes
  deriving DecidableEq, Repr

def p9MsizeMax : ℕ := 128 * 1024

/-- The device: the share, whose root is a resolved host path, the negotiated message
size, the request buffer (with the host memory after it) and the fid table by hash
bucket. -/
structure P9 where
  root : Bytes
  root_lt : root.length < pathMax
  ro : Bool
  msize : U32
  req : ℕ → U8
  fids : Fin 1024 → List P9Fid

namespace P9

def bucket (fid : U32) : Fin 1024 := ⟨(fid &&& 1023).toNat, by
  rw [BitVec.toNat_and]
  exact Nat.lt_of_le_of_lt Nat.and_le_right (by decide)⟩

def fidFind (v : P9) (fid : U32) : Option P9Fid := HashTable.find P9Fid.fid bucket v.fids fid

def modifyFid (v : P9) (fid : U32) (g : P9Fid → P9Fid) : P9 :=
  { v with fids := HashTable.modify P9Fid.fid bucket v.fids fid g }

def insertFid (v : P9) (f : P9Fid) : P9 := { v with fids := HashTable.insert P9Fid.fid bucket v.fids f }

def eraseFid (v : P9) (fid : U32) : P9 := { v with fids := HashTable.erase P9Fid.fid bucket v.fids fid }

end P9

def closeFd (f : P9Fid) : Host Unit :=
  match f.fd with
  | some fd => .call (.close fd) fun _ => .ret ()
  | none => .ret ()

def closeDir (f : P9Fid) : Host Unit :=
  match f.dir with
  | some dir => .call (.closedir dir) fun _ => .ret ()
  | none => .ret ()

def closeHandles (f : P9Fid) : Host Unit := (closeFd f).bind fun _ => closeDir f

def closeAll : List P9Fid → Host Unit
  | [] => .ret ()
  | f :: fs => (closeHandles f).bind fun _ => closeAll fs

def fidNew (v : P9) (fid : U32) (path : Bytes) : Host P9 :=
  match v.fidFind fid with
  | some f => (closeHandles f).bind fun _ =>
      .ret (v.modifyFid fid fun f => { f with fd := none, dir := none, path := pathBuf path })
  | none => .ret (v.insertFid ⟨fid, none, none, pathBuf path⟩)

def fidDel (v : P9) (fid : U32) : Host P9 :=
  match v.fidFind fid with
  | some f => (closeHandles f).bind fun _ => .ret (v.eraseFid fid)
  | none => .ret v

def fidsClear (v : P9) : Host P9 :=
  (closeAll ((List.finRange 1024).flatMap v.fids)).bind fun _ => .ret { v with fids := fun _ => [] }

def dotlToHost (fl : U32) : OpenFlags where
  acc := match (fl &&& 3).toNat with
    | 1 => .wronly
    | 2 => .rdwr
    | 3 => .rdwr
    | _ => .rdonly
  creat := fl.getLsbD 6
  excl := fl.getLsbD 7
  trunc := fl.getLsbD 9
  append := fl.getLsbD 10
  nonblock := fl.getLsbD 11
  nofollow := fl.getLsbD 17

def dotlWantsWrite (fl : U32) : Bool := fl &&& 3 = 1 || fl &&& 3 = 2 || fl.getLsbD 6 || fl.getLsbD 9

structure Qid where
  type : U8
  path : U64
  deriving DecidableEq, Repr

def qidMix (dev ino : U64) : U64 :=
  let h := dev * 0x9E3779B97F4A7C15
  let h := h ^^^ (ino + 0x9E3779B97F4A7C15 + (h <<< 6) + (h >>> 2))
  if h ≠ 0 then h else 1

namespace Stat

def isDir (st : Stat) : Bool := st.mode &&& 0xf000 = 0x4000

def isLnk (st : Stat) : Bool := st.mode &&& 0xf000 = 0xa000

def qidType (st : Stat) : U8 := if st.isDir then 0x80 else if st.isLnk then 0x02 else 0x00

def qid (st : Stat) : Qid := ⟨st.qidType, qidMix st.dev st.ino⟩

end Stat

/-- `p_qid`, with version 0. -/
def Out.qid (o : Out) (q : Qid) : Out := ((o.u8 q.type).u32 0).u64 q.path

inductive TMsg
  | statfs | lopen | lcreate | symlink | mknod | rename | readlink | getattr | setattr
  | xattrwalk | xattrcreate | readdir | fsync | lock | getlock | link | mkdir | renameat
  | unlinkat | version | attach | flush | walk | read | write | clunk | remove
  deriving DecidableEq, Repr

namespace TMsg

def code : TMsg → U8
  | statfs => 8 | lopen => 12 | lcreate => 14 | symlink => 16 | mknod => 18 | rename => 20
  | readlink => 22 | getattr => 24 | setattr => 26 | xattrwalk => 30 | xattrcreate => 32
  | readdir => 40 | fsync => 50 | lock => 52 | getlock => 54 | link => 70 | mkdir => 72
  | renameat => 74 | unlinkat => 76 | version => 100 | attach => 104 | flush => 108
  | walk => 110 | read => 116 | write => 118 | clunk => 120 | remove => 122

def ofCode (x : U8) : Option TMsg :=
  [statfs, lopen, lcreate, symlink, mknod, rename, readlink, getattr, setattr, xattrwalk,
    xattrcreate, readdir, fsync, lock, getlock, link, mkdir, renameat, unlinkat, version,
    attach, flush, walk, read, write, clunk, remove].find? fun t => t.code = x

end TMsg

abbrev Answer := Except Errno Out × P9

section Steps

def fail (v : P9) (e : Errno) : Host Answer := .ret (.error e, v)

def done (v : P9) (o : Out) : Host Answer := .ret (.ok o, v)

def failIf (b : Bool) (e : Errno) (v : P9) (k : Host Answer) : Host Answer := if b then fail v e else k

def withFid (v : P9) (fid : U32) (k : P9Fid → Host Answer) : Host Answer :=
  match v.fidFind fid with
  | none => fail v eBADF
  | some f => k f

def orFail {α : Type} (v : P9) (x : Except Errno α) (k : α → Host Answer) : Host Answer :=
  match x with
  | .error e => fail v e
  | .ok a => k a

def reading {α : Type} (p : Parse α) (c : Cur) (k : α → Cur → Host Answer) : Host Answer := k (p c).1 (p c).2

end Steps

def p9NameMax : ℕ := 512

def hVersion (v : P9) (c : Cur) (tag : U16) (cap : ℕ) : Host Answer :=
  reading (do
    let msz ← cU32
    let ver ← cStr 32
    return (msz, ver)) c fun (msz, ver) _ =>
  -- the fields are used even if the message is too short for them
  (fidsClear v).bind fun v =>
  let msize := if msz.toNat < p9MsizeMax then msz else BitVec.ofNat 32 p9MsizeMax
  let msize := if msize < 4096 then 4096 else msize
  let known : Bytes := [0x39, 0x50, 0x32, 0x30, 0x30, 0x30, 0x2e, 0x4c]
  let rver : Bytes := if ver.1.take 8 = known then known else [0x75, 0x6e, 0x6b, 0x6e, 0x6f, 0x77, 0x6e]
  done { v with msize := msize } (((respBegin 101 tag cap).u32 msize).str rver)

def hAttach (v : P9) (c : Cur) (tag : U16) (cap : ℕ) : Host Answer :=
  reading (do
    let fid ← cU32
    let _ ← cU32
    let _ ← cStr 128
    let _ ← cStr 256
    let _ ← cU32
    return fid) c fun fid c =>
  failIf c.err eINVAL v <|
  .call (.lstat v.root) fun r => orFail v r fun st =>
  (fidNew v fid v.root).bind fun v =>
  done v ((respBegin 105 tag cap).qid st.qid)

/-- The loop of a walk: every name is resolved and looked up in turn. A failure after the
first name ends the walk where it stands. -/
def walkNames (v : P9) (k : Bytes → List Qid → Host Answer) : Bytes → List Qid → List CStr → Host Answer
  | cur, qids, [] => k cur qids
  | cur, qids, name :: names =>
    let stop (e : Errno) : Host Answer := if qids = [] then fail v e else k cur qids
    match pathChild v.root cur name.1 with
    | .error e => stop e
    | .ok child =>
      .call (.lstat child) fun r =>
        match r with
        | .error e => stop e
        | .ok st => walkNames v k (pathBuf child) (qids ++ [st.qid]) names

def cNames : ℕ → Parse (List CStr)
  | 0 => return []
  | n + 1 => do
    let name ← cStr p9NameMax
    let names ← cNames n
    return name :: names

def hWalk (v : P9) (c : Cur) (tag : U16) (cap : ℕ) : Host Answer :=
  reading (do
    let fid ← cU32
    let newfid ← cU32
    let nw ← cU16
    return (fid, newfid, nw)) c fun (fid, newfid, nw) c =>
  failIf (c.err || decide (16 < nw.toNat)) eINVAL v <|
  withFid v fid fun f =>
  reading (cNames nw.toNat) c fun names c =>
  failIf c.err eINVAL v <|
  walkNames v (fun cur qids =>
    let finish (v : P9) : Host Answer :=
      done v (qids.foldl Out.qid ((respBegin 111 tag cap).u16 (BitVec.ofNat 16 qids.length)))
    if qids.length = nw.toNat then
      if newfid = fid then
        (closeHandles f).bind fun _ =>
        finish (v.modifyFid fid fun f => { f with fd := none, dir := none, path := pathBuf cur })
      else (fidNew v newfid cur).bind finish
    else finish v) (pathBuf f.path) [] names

def p9StatsBasic : U64 := 0x7ff

def hGetattr (v : P9) (c : Cur) (tag : U16) (cap : ℕ) : Host Answer :=
  reading (do
    let fid ← cU32
    let _ ← cU64
    return fid) c fun fid c =>
  failIf c.err eINVAL v <|
  withFid v fid fun f =>
  .call (.lstat f.path) fun r => orFail v r fun st =>
  let o := ((respBegin 25 tag cap).u64 p9StatsBasic).qid st.qid
  let o := ((o.u32 st.mode).u32 st.uid).u32 st.gid
  let o := ((((o.u64 st.nlink).u64 st.rdev).u64 st.size).u64 st.blksize).u64 st.blocks
  let o := (((((o.u64 st.atim.1).u64 st.atim.2).u64 st.mtim.1).u64 st.mtim.2).u64 st.ctim.1).u64 st.ctim.2
  done v ((((o.u64 0).u64 0).u64 0).u64 0)

/-- A step of `h_setattr`: a call that is made only if the message asks for it. -/
def whenAsked (v : P9) (asked : Bool) (call : Host (Except Errno Unit)) (k : Host Answer) : Host Answer :=
  if asked then call.bind fun r => orFail v r fun _ => k else k

def timeSet (given set : Bool) (sec nsec : U64) : TimeSet :=
  if given then (if set then .at sec nsec else .now) else .omit

def hSetattr (v : P9) (c : Cur) (tag : U16) (cap : ℕ) : Host Answer :=
  reading (do
    let fid ← cU32
    let valid ← cU32
    let mode ← cU32
    let uid ← cU32
    let gid ← cU32
    let size ← cU64
    let atS ← cU64
    let atNs ← cU64
    let mtS ← cU64
    let mtNs ← cU64
    return (fid, valid, mode, uid, gid, size, (atS, atNs), (mtS, mtNs))) c
    fun (fid, valid, mode, uid, gid, size, at_, mt) c =>
  failIf c.err eINVAL v <|
  failIf v.ro eROFS v <|
  withFid v fid fun f =>
  whenAsked v (valid.getLsbD 0) (.call (.chmod f.path (mode &&& 0xfff)) fun r => .ret r) <|
  -- the caller is told of every failure of `lchown` but EPERM
  whenAsked v (valid.getLsbD 1 || valid.getLsbD 2)
    (.call (.lchown f.path (if valid.getLsbD 1 then some uid else none) (if valid.getLsbD 2 then some gid else none))
      fun r => match r with
        | .error e => .ret (if e = 1 then .ok () else .error e)
        | .ok () => .ret (.ok ())) <|
  whenAsked v (valid.getLsbD 3) (.call (.truncate f.path size) fun r => .ret r) <|
  whenAsked v (valid.getLsbD 4 || valid.getLsbD 5)
    (.call (.utimensat f.path (timeSet (valid.getLsbD 4) (valid.getLsbD 7) at_.1 at_.2)
      (timeSet (valid.getLsbD 5) (valid.getLsbD 8) mt.1 mt.2)) fun r => .ret r) <|
  done v (respBegin 27 tag cap)

/-- The bytes of a directory entry in an `Rreaddir`. -/
def entrySize (name : Bytes) : ℕ := 13 + 8 + 1 + 2 + name.length

/-- The loop of `h_readdir`. Each entry takes room, so the room bounds the rounds. -/
def readdirLoop (v : P9) (path : Bytes) (dir count start : ℕ) (k : Out → Host Answer) :
    ℕ → Bool → Out → Host Answer
  | 0, _, o => k o
  | fuel + 1, any, o =>
    .call (.telldir dir) fun here =>
    .call (.readdir dir) fun de =>
    match de with
    | none => k o
    | some de =>
      let esz := entrySize de.name
      if count < (o.bytes.length - start) + esz ∨ o.cap < o.bytes.length + esz then
        .call (.seekdir dir here) fun _ =>
        if !any && decide (count < (o.bytes.length - start) + esz) then fail v eINVAL else k o
      else
        let child := path ++ slash :: de.name
        let put (qid : Qid) (tbyte : U8) : Host Answer :=
          .call (.telldir dir) fun next =>
          readdirLoop v path dir count start k fuel true ((((o.qid qid).u64 next).u8 tbyte).str de.name)
        let plain := put ⟨0, qidMix 0 de.ino⟩ de.dtype
        if pathMax ≤ child.length then plain
        else
          .call (.lstat child) fun r =>
            match r with
            | .ok st => put st.qid ((st.mode &&& 0xf000) >>> 12 |>.setWidth 8)
            | .error _ => plain

def hReaddir (v : P9) (c : Cur) (tag : U16) (cap : ℕ) : Host Answer :=
  reading (do
    let fid ← cU32
    let off ← cU64
    let count ← cU32
    return (fid, off, count)) c fun (fid, off, count) c =>
  failIf c.err eINVAL v <|
  withFid v fid fun f =>
  let scan (v : P9) (dir : ℕ) : Host Answer :=
    let o := (respBegin 41 tag cap).u32 0
    let start := o.bytes.length
    let list : Host Answer := readdirLoop v f.path dir count.toNat start
      (fun o => done v (o.patch (respBegin 41 tag cap).bytes.length (BitVec.ofNat 32 (o.bytes.length - start))))
      (cap + 1) false o
    if off = 0 then .call (.rewinddir dir) fun _ => list else .call (.seekdir dir off) fun _ => list
  match f.dir with
  | some dir => scan v dir
  | none =>
    .call (.opendir f.path) fun r => orFail v r fun dir =>
    scan (v.modifyFid fid fun f => { f with dir := some dir }) dir

def hLopen (v : P9) (c : Cur) (tag : U16) (cap : ℕ) : Host Answer :=
  reading (do
    let fid ← cU32
    let fl ← cU32
    return (fid, fl)) c fun (fid, fl) c =>
  failIf c.err eINVAL v <|
  withFid v fid fun f =>
  .call (.lstat f.path) fun r => orFail v r fun st =>
  failIf (v.ro && dotlWantsWrite fl) eROFS v <|
  let finish (v : P9) : Host Answer := done v (((respBegin 13 tag cap).qid st.qid).u32 0)
  if st.isDir then
    (closeDir f).bind fun _ =>
    .call (.opendir f.path) fun r =>
      -- the old stream is gone even if the new one cannot be opened
      match r with
      | .error e => fail (v.modifyFid fid fun f => { f with dir := none }) e
      | .ok dir => finish (v.modifyFid fid fun f => { f with dir := some dir })
  else
    .call (.openFile f.path (dotlToHost fl) 0x1b6) fun r => orFail v r fun fd =>
    (closeFd f).bind fun _ =>
    finish (v.modifyFid fid fun f => { f with fd := some fd })

def hLcreate (v : P9) (c : Cur) (tag : U16) (cap : ℕ) : Host Answer :=
  reading (do
    let fid ← cU32
    let name ← cStr p9NameMax
    let fl ← cU32
    let mode ← cU32
    let _ ← cU32
    return (fid, name, fl, mode)) c fun (fid, name, fl, mode) c =>
  failIf c.err eINVAL v <|
  failIf v.ro eROFS v <|
  withFid v fid fun f =>
  orFail v (pathChild v.root f.path name.1) fun child =>
  .call (.openFile child { dotlToHost fl with creat := true } (mode &&& 0xfff)) fun r => orFail v r fun fd =>
  .call (.fstat fd) fun st =>
  (closeHandles f).bind fun _ =>
  done (v.modifyFid fid fun f => { f with fd := some fd, dir := none, path := pathBuf child })
    (((respBegin 15 tag cap).qid (Stat.qid st)).u32 0)

def hRead (v : P9) (c : Cur) (tag : U16) (cap : ℕ) : Host Answer :=
  reading (do
    let fid ← cU32
    let off ← cU64
    let count ← cU32
    return (fid, off, count)) c fun (fid, off, count) c =>
  failIf c.err eINVAL v <|
  withFid v fid fun f =>
  match f.fd with
  | none => fail v eBADF
  | some fd =>
    let count := min (min count.toNat (cap - 11)) (p9MsizeMax - 11)
    .call (.pread fd count off) fun r => orFail v r fun data =>
    let head := respBegin 117 tag cap
    done v (((head.u32 0).append (data.take count)).patch head.bytes.length
      (BitVec.ofNat 32 (data.take count).length))

def hWrite (v : P9) (c : Cur) (tag : U16) (cap : ℕ) : Host Answer :=
  reading (do
    let fid ← cU32
    let off ← cU64
    let count ← cU32
    return (fid, off, count)) c fun (fid, off, count) c =>
  failIf c.err eINVAL v <|
  failIf v.ro eROFS v <|
  withFid v fid fun f =>
  match f.fd with
  | none => fail v eBADF
  | some fd =>
    -- the sum is taken in 32 bits
    let count := if c.cap < (c.pos + count.toNat) % 2 ^ 32 then c.cap - c.pos else count.toNat
    .call (.pwrite fd (bytesAt c.b c.pos count) off) fun r => orFail v r fun n =>
    done v ((respBegin 119 tag cap).u32 n)

def replyQid (v : P9) (type : U8) (tag : U16) (cap : ℕ) (child : Bytes) : Host Answer :=
  .call (.lstat child) fun r => orFail v r fun st =>
  done v ((respBegin type tag cap).qid st.qid)

def hMkdir (v : P9) (c : Cur) (tag : U16) (cap : ℕ) : Host Answer :=
  reading (do
    let dfid ← cU32
    let name ← cStr p9NameMax
    let mode ← cU32
    let _ ← cU32
    return (dfid, name, mode)) c fun (dfid, name, mode) c =>
  failIf c.err eINVAL v <|
  failIf v.ro eROFS v <|
  withFid v dfid fun f =>
  orFail v (pathChild v.root f.path name.1) fun child =>
  .call (.mkdir child (mode &&& 0xfff)) fun r => orFail v r fun _ =>
  replyQid v 73 tag cap child

def hMknod (v : P9) (c : Cur) (tag : U16) (cap : ℕ) : Host Answer :=
  reading (do
    let dfid ← cU32
    let name ← cStr p9NameMax
    let mode ← cU32
    let major ← cU32
    let minor ← cU32
    let _ ← cU32
    return (dfid, name, mode, major, minor)) c fun (dfid, name, mode, major, minor) c =>
  failIf c.err eINVAL v <|
  failIf v.ro eROFS v <|
  withFid v dfid fun f =>
  orFail v (pathChild v.root f.path name.1) fun child =>
  .call (.mknod child mode major minor) fun r => orFail v r fun _ =>
  replyQid v 19 tag cap child

def hSymlink (v : P9) (c : Cur) (tag : U16) (cap : ℕ) : Host Answer :=
  reading (do
    let dfid ← cU32
    let name ← cStr p9NameMax
    let target ← cStr pathMax
    let _ ← cU32
    return (dfid, name, target)) c fun (dfid, name, target) c =>
  failIf c.err eINVAL v <|
  failIf v.ro eROFS v <|
  withFid v dfid fun f =>
  orFail v (pathChild v.root f.path name.1) fun child =>
  .call (.symlink target.1 child) fun r => orFail v r fun _ =>
  replyQid v 17 tag cap child

def hReadlink (v : P9) (c : Cur) (tag : U16) (cap : ℕ) : Host Answer :=
  reading cU32 c fun fid c =>
  failIf c.err eINVAL v <|
  withFid v fid fun f =>
  .call (.readlink f.path) fun r => orFail v r fun buf =>
  done v ((respBegin 23 tag cap).str (cName pathMax buf).1)

def hLink (v : P9) (c : Cur) (tag : U16) (cap : ℕ) : Host Answer :=
  reading (do
    let dfid ← cU32
    let fid ← cU32
    let name ← cStr p9NameMax
    return (dfid, fid, name)) c fun (dfid, fid, name) c =>
  failIf c.err eINVAL v <|
  failIf v.ro eROFS v <|
  withFid v dfid fun df =>
  withFid v fid fun sf =>
  orFail v (pathChild v.root df.path name.1) fun child =>
  .call (.link sf.path child) fun r => orFail v r fun _ =>
  done v (respBegin 71 tag cap)

def hRename (v : P9) (c : Cur) (tag : U16) (cap : ℕ) : Host Answer :=
  reading (do
    let fid ← cU32
    let dfid ← cU32
    let name ← cStr p9NameMax
    return (fid, dfid, name)) c fun (fid, dfid, name) c =>
  failIf c.err eINVAL v <|
  failIf v.ro eROFS v <|
  withFid v fid fun f =>
  withFid v dfid fun df =>
  orFail v (pathChild v.root df.path name.1) fun child =>
  .call (.rename f.path child) fun r => orFail v r fun _ =>
  done (v.modifyFid fid fun f => { f with path := pathBuf child }) (respBegin 21 tag cap)

def hRenameat (v : P9) (c : Cur) (tag : U16) (cap : ℕ) : Host Answer :=
  reading (do
    let od ← cU32
    let oldn ← cStr p9NameMax
    let nd ← cU32
    let newn ← cStr p9NameMax
    return (od, oldn, nd, newn)) c fun (od, oldn, nd, newn) c =>
  failIf c.err eINVAL v <|
  failIf v.ro eROFS v <|
  withFid v od fun of =>
  withFid v nd fun nf =>
  orFail v (pathChild v.root of.path oldn.1) fun op =>
  orFail v (pathChild v.root nf.path newn.1) fun np =>
  .call (.rename op np) fun r => orFail v r fun _ =>
  done v (respBegin 75 tag cap)

def hUnlinkat (v : P9) (c : Cur) (tag : U16) (cap : ℕ) : Host Answer :=
  reading (do
    let dfid ← cU32
    let name ← cStr p9NameMax
    let flags ← cU32
    return (dfid, name, flags)) c fun (dfid, name, flags) c =>
  failIf c.err eINVAL v <|
  failIf v.ro eROFS v <|
  withFid v dfid fun f =>
  orFail v (pathChild v.root f.path name.1) fun child =>
  let finish (r : Except Errno Unit) : Host Answer := orFail v r fun _ => done v (respBegin 77 tag cap)
  if flags.getLsbD 9 then .call (.rmdir child) finish else .call (.unlink child) finish

def hRemove (v : P9) (c : Cur) (tag : U16) (cap : ℕ) : Host Answer :=
  reading cU32 c fun fid c =>
  failIf c.err eINVAL v <|
  withFid v fid fun f =>
  -- the fid is given up whatever happens to the file
  if v.ro then (fidDel v fid).bind fun v => fail v eROFS
  else
    .call (.remove f.path) fun r =>
    (fidDel v fid).bind fun v => orFail v r fun _ => done v (respBegin 123 tag cap)

def hClunk (v : P9) (c : Cur) (tag : U16) (cap : ℕ) : Host Answer :=
  reading cU32 c fun fid c =>
  failIf c.err eINVAL v <|
  (fidDel v fid).bind fun v => done v (respBegin 121 tag cap)

def hFsync (v : P9) (c : Cur) (tag : U16) (cap : ℕ) : Host Answer :=
  reading (do
    let fid ← cU32
    let datasync ← cU32
    return (fid, datasync)) c fun (fid, datasync) c =>
  failIf c.err eINVAL v <|
  withFid v fid fun f =>
  match f.fd with
  | none => done v (respBegin 51 tag cap)
  | some fd =>
    .call (.fsync fd (datasync ≠ 0)) fun r => orFail v r fun _ =>
    done v (respBegin 51 tag cap)

def hStatfs (v : P9) (c : Cur) (tag : U16) (cap : ℕ) : Host Answer :=
  reading cU32 c fun fid c =>
  failIf c.err eINVAL v <|
  withFid v fid fun f =>
  .call (.statfs f.path) fun r => orFail v r fun sf =>
  let o := ((respBegin 9 tag cap).u32 sf.type).u32 sf.bsize
  let o := ((((o.u64 sf.blocks).u64 sf.bfree).u64 sf.bavail).u64 sf.files).u64 sf.ffree
  done v ((o.u64 sf.fsid).u32 sf.namelen)

def hFlush (v : P9) (tag : U16) (cap : ℕ) : Host Answer := done v (respBegin 109 tag cap)

def hXattrUnsup (v : P9) : Host Answer := fail v eOPNOTSUPP

def hLock (v : P9) (tag : U16) (cap : ℕ) : Host Answer := done v ((respBegin 53 tag cap).u8 0)

def hGetlock (v : P9) (c : Cur) (tag : U16) (cap : ℕ) : Host Answer :=
  reading (do
    let _ ← cU32
    let _ ← cU8
    let start ← cU64
    let length ← cU64
    let pid ← cU32
    let cid ← cStr 128
    return (start, length, pid, cid)) c fun (start, length, pid, cid) _ =>
  done v ((((((respBegin 55 tag cap).u8 2).u64 start).u64 length).u32 pid).str cid.1)

def p9Handler (v : P9) (t : TMsg) (c : Cur) (tag : U16) (cap : ℕ) : Host Answer :=
  match t with
  | .version => hVersion v c tag cap
  | .attach => hAttach v c tag cap
  | .walk => hWalk v c tag cap
  | .getattr => hGetattr v c tag cap
  | .setattr => hSetattr v c tag cap
  | .readdir => hReaddir v c tag cap
  | .lopen => hLopen v c tag cap
  | .lcreate => hLcreate v c tag cap
  | .read => hRead v c tag cap
  | .write => hWrite v c tag cap
  | .mkdir => hMkdir v c tag cap
  | .mknod => hMknod v c tag cap
  | .symlink => hSymlink v c tag cap
  | .readlink => hReadlink v c tag cap
  | .link => hLink v c tag cap
  | .rename => hRename v c tag cap
  | .renameat => hRenameat v c tag cap
  | .unlinkat => hUnlinkat v c tag cap
  | .remove => hRemove v c tag cap
  | .clunk => hClunk v c tag cap
  | .fsync => hFsync v c tag cap
  | .statfs => hStatfs v c tag cap
  | .flush => hFlush v tag cap
  | .xattrwalk => hXattrUnsup v
  | .xattrcreate => hXattrUnsup v
  | .lock => hLock v tag cap
  | .getlock => hGetlock v c tag cap

/-- The header of a request: type and tag, and the cursor after them. -/
def p9Header (req : ℕ → U8) (reqlen : ℕ) : (U8 × U16) × Cur :=
  (do
    let _ ← cU32
    let type ← cU8
    let tag ← cU16
    return (type, tag) : Parse (U8 × U16)) ⟨req, reqlen, 0, false⟩

def p9Dispatch (v : P9) (reqlen wcap : ℕ) : Host (Bytes × P9) :=
  let cap := min wcap p9MsizeMax
  let ((type, tag), c) := p9Header v.req reqlen
  if c.err then .ret (mkLerror tag eINVAL cap, v)
  else
    match TMsg.ofCode type with
    | none => .ret (mkLerror tag eOPNOTSUPP cap, v)
    | some t =>
      (p9Handler v t c tag cap).bind fun (r, v) =>
      match r with
      | .error e => .ret (mkLerror tag e cap, v)
      | .ok o => .ret (respFinish o tag cap, v)

/-- `fs_reset`, as far as the fids and the message size go. -/
def fsReset (v : P9) : Host P9 := fidsClear { v with msize := BitVec.ofNat 32 p9MsizeMax }

/-- What the guest can make the device do: send a message, whose bytes and lengths it
chooses, or reset the device. -/
inductive P9Event
  | message (req : ℕ → U8) (reqlen wcap : ℕ)
  | reset

def p9Event (v : P9) : P9Event → Host P9
  | .message req reqlen wcap => (p9Dispatch { v with req := req } reqlen wcap).bind fun r => .ret r.2
  | .reset => fsReset v

def p9Session (v : P9) : List P9Event → Host P9
  | [] => .ret v
  | e :: es => (p9Event v e).bind fun v => p9Session v es

/-- The device as `virtio_9p_create` leaves it. -/
def P9.created (root : Bytes) (root_lt : root.length < pathMax) (ro : Bool) : P9 where
  root := root
  root_lt := root_lt
  ro := ro
  msize := BitVec.ofNat 32 p9MsizeMax
  req := fun _ => 0
  fids := fun _ => []

lemma length_slash_s : ([slash, 0x73] : Bytes).length < pathMax := by decide

end Arm64Emu
