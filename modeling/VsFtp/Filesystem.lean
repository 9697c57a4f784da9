import VsFtp.Os

/-!
# `vsftp_filesystem.c`

The file-system functions of the server, over any data: none of them touches the
server's record.  Output parameters are passed in with their current contents
and come back in the result.  Pointers are never `NULL` in the calls the server
makes, except `cwd` in `filesystemGetRealPath`.
-/

namespace VsFtp

open CString

variable {δ : Type}

/-- The status and the output buffer of a function that returns a path or a text
through `char *buf, size_t *len`. -/
structure PathOut where
  retval : Int
  buf : List Byte
  len : ℕ
  deriving DecidableEq

/-- `VSFTPFilesystemIsAbsPath`. -/
def filesystemIsAbsPath (path : List Byte) : Int :=
  if path.head? = some 47 then 0 else -1

theorem filesystemIsAbsPath_eq_zero_iff {path : List Byte} :
    filesystemIsAbsPath path = 0 ↔ path.head? = some 47 := by
  unfold filesystemIsAbsPath
  by_cases h : path.head? = some 47 <;> simp [h]

/-- `ConcatCwdAndPath`: the concatenation, if it fits. -/
def concatCwdAndPath (cwd : List Byte) (cwdLen : ℕ) (path : List Byte) (pathLen size : ℕ) :
    Option (List Byte) :=
  if cwdLen + pathLen < size then
    let written := cwd ++ 47 :: path
    if written.length < size then some written else none
  else none

/-- The string `VSFTPFilesystemGetRealPath` resolves, if it gets that far. -/
def realPathTarget (cwd : Option (List Byte)) (cwdLen : ℕ) (path : List Byte) (pathLen : ℕ) :
    Option (List Byte) :=
  if filesystemIsAbsPath path = 0 then some path
  else
    match cwd with
    | some cwd => if 0 < cwdLen then concatCwdAndPath cwd cwdLen path pathLen pathLenMax else none
    | none => none

/-- `VSFTPFilesystemGetRealPath`. -/
def filesystemGetRealPath (cwd : Option (List Byte)) (cwdLen : ℕ) (path : List Byte)
    (pathLen : ℕ) (realPath : List Byte) (size realPathLen : ℕ) : SysM δ PathOut :=
  if 0 < pathLen ∧ 0 < size then
    match realPathTarget cwd cwdLen path pathLen with
    | none => pure ⟨-1, realPath, realPathLen⟩
    | some lpath => do
        let p ← sysRealpath lpath
        match p with
        | none => pure ⟨-1, realPath, realPathLen⟩
        | some p =>
            let pLen := strnlen p pathLenMax
            if size > pLen then pure ⟨0, strncpy realPath 0 p size, pLen⟩
            else pure ⟨-1, realPath, realPathLen⟩
  else pure ⟨-1, realPath, realPathLen⟩

/-- The common body of `VSFTPFilesystemIsDir` and `VSFTPFilesystemIsFile`.  The
result of `stat` is ignored: if it fails, the mode that is tested is whatever the
stack held. -/
def filesystemHasKind (kind : FileKind) (path : List Byte) (pathLen : ℕ) : SysM δ Int :=
  if 0 < pathLen then do
    let leftover ← Prog.peek (·.leftover ·)
    let pathStat ← sysStat path
    pure (if (pathStat.getD leftover).kind = kind then 0 else -1)
  else pure (-1)

/-- `VSFTPFilesystemIsDir`. -/
def filesystemIsDir (dir : List Byte) (dirLen : ℕ) : SysM δ Int :=
  filesystemHasKind .dir dir dirLen

/-- `VSFTPFilesystemIsFile`. -/
def filesystemIsFile (file : List Byte) (fileLen : ℕ) : SysM δ Int :=
  filesystemHasKind .regular file fileLen

/-- What `VSFTPFilesystemListDirPerLine` returns: the status, the line, and the
cookie for the next call. -/
structure ListOut where
  retval : Int
  buf : List Byte
  bufLen : ℕ
  cookie : Option Dir
  deriving DecidableEq

/-- `VSFTPFilesystemListDirPerLine`.  At the end of the directory it succeeds too:
the stream is closed, the cookie is `NULL`, and `buf` and `bufLen` are left as they
were. -/
def filesystemListDirPerLine (path : List Byte) (pathLen : ℕ) (buf : List Byte)
    (size bufLen : ℕ) (prependDir : Bool) (cookie : Option Dir) : SysM δ ListOut :=
  if 0 < pathLen ∧ 0 < size then do
    let d ← (match cookie with
      | none => sysOpendir path
      | some d => pure (some d))
    match d with
    | none => pure ⟨-1, buf, bufLen, cookie⟩
    | some d => do
        let (ldir, d) ← sysReaddir d
        match ldir with
        | none => do
            sysClosedir d
            pure ⟨0, buf, bufLen, none⟩
        | some name => do
            let written := if prependDir then path ++ 47 :: name else name
            let buf := snprintf buf 0 size written
            if written.length < size then pure ⟨0, buf, written.length, some d⟩
            else do
              sysClosedir d
              pure ⟨-1, buf, bufLen, cookie⟩
  else pure ⟨-1, buf, bufLen, cookie⟩

/-- What `VSFTPFilesystemOpenFile` returns. -/
structure OpenOut where
  retval : Int
  fd : Int
  size : ℕ
  deriving DecidableEq

/-- `VSFTPFilesystemOpenFile`. -/
def filesystemOpenFile (absPath : List Byte) (absPathLen : ℕ) (fd : Int) (size : ℕ) :
    SysM δ OpenOut :=
  if 0 < absPathLen then do
    let retval ← sysAccess absPath
    if retval = 0 then do
      let fd ← sysOpen absPath
      if fd = -1 then pure ⟨-1, fd, size⟩
      else do
        let statBuf ← sysFstat fd
        match statBuf with
        | none => pure ⟨-1, fd, size⟩
        | some st => pure ⟨0, fd, st.size⟩
    else pure ⟨retval, fd, size⟩
  else pure ⟨-1, fd, size⟩

/-- `VSFTPFilesystemCloseFile`. -/
def filesystemCloseFile (fd : Int) : SysM δ Int := sysCloseFile fd

end VsFtp
