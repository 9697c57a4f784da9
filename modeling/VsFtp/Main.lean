import VsFtp.Handler
import VsFtp.Lib.Loop
import VsFtp.Lib.Run

/-!
# `main.c`

The checks of the command line, and the runs of the server as `main` drives it.

## Main definitions

* `isDecimal`, `parseDecimal` — the port on the command line.
* `mainStart` — `main` up to its loop.
* `Reachable` — the states at the head of the loop: after the start, and after
  every call of `VSFTPServerHandler` that returned zero.
* `ReachableBy` — the same, for runs all of whose turns meet a condition.
* `mainBody`, `mainLoop`, `main` — the loop, and `main` as a whole.
-/

namespace VsFtp

open CString Prog

/-- `DecimalStringValueMax`. -/
def decimalStringValueMax : List Byte := ascii "65365"

/-- `DECIMAL_STRING_LEN_MAX`. -/
abbrev decimalStringLenMax : ℕ := 5

/-- `IsDecimalChar`. -/
def isDecimalChar (c : Byte) : Bool := 48 ≤ c && c ≤ 57

/-- The comparison of the digits of `string` with those of the limit, from the
first one on. -/
def digitsFit : List Byte → List Byte → Bool
  | c :: string, m :: max => if c > m then false else if c = m then digitsFit string max else true
  | _, _ => true

/-- `IsDecimal`.  The `return -1` for an empty string is converted to `true`. -/
def isDecimal (string : List Byte) : Bool :=
  if string.all isDecimalChar then
    if string.length = 0 then true
    else if string.length = decimalStringLenMax then digitsFit string decimalStringValueMax
    else if string.length > decimalStringLenMax then false
    else true
  else false

/-- `string[i] - 0x30` as an operand of 16-bit arithmetic, with `char` signed. -/
def digitValue (c : Byte) : UInt16 := (if c < 128 then c.toUInt16 else c.toUInt16 - 256) - 48

/-- The loop of `ParseDecimal`, from index `i - 1` down to 0. -/
def parseDecimalLoop (string : List Byte) : ℕ → UInt16 → UInt16 → UInt16
  | 0, _, number => number
  | i + 1, val, number =>
      parseDecimalLoop string i (val * 10) (number + digitValue (string.getD i 0) * val)

/-- `ParseDecimal`.  The index starts at `len - 1` cast to `int16_t`. -/
def parseDecimal (string : List Byte) : UInt16 :=
  let start := sizeSub string.length 1 % 2 ^ 16
  parseDecimalLoop string (if start < 2 ^ 15 then start + 1 else 0) 1 0

/-- The command line: `argv[1]`, `argv[2]` and `argv[3]`. -/
structure Argv where
  ipAddr : List Byte
  port : List Byte
  rootPath : List Byte
  deriving DecidableEq

/-- `main` up to its loop. -/
def mainStart (argv : Argv) : ServerM Int := do
  if inetPton argv.ipAddr = false then pure (-1)
  else if isDecimal argv.port = false then pure (-1)
  else do
    let retval ← filesystemIsDir argv.rootPath argv.rootPath.length
    let port := parseDecimal argv.port
    if retval ≠ 0 then pure (-1)
    else serverInitialize argv.rootPath argv.rootPath.length argv.ipAddr argv.ipAddr.length port

/-- The state the program is loaded in. -/
def St.zero : St := ⟨ServerData.zero, []⟩

/-- `main` has reached its loop. -/
def Started (os : Os) (argv : Argv) (s : St) : Prop := mainStart argv os St.zero = (some 0, s)

/-- One turn of the loop of `main`, which goes on as long as the call returns
zero. -/
def Turn (os : Os) (s s' : St) : Prop := serverHandler os s = (some 0, s')

/-- The states of the server between two calls of `VSFTPServerHandler`. -/
def Reachable (os : Os) (argv : Argv) : St → Prop := Reach (Started os argv) (Turn os)

/-- The states that are reached by turns that start in states satisfying `C`. -/
def ReachableBy (os : Os) (argv : Argv) (C : St → Prop) : St → Prop :=
  Reach (Started os argv) fun s s' => C s ∧ Turn os s s'

theorem ReachableBy.reachable {os : Os} {argv : Argv} {C : St → Prop} {s : St}
    (h : ReachableBy os argv C s) : Reachable os argv s := h.mono fun _ _ h => h.2

/-! ### The loop and the end -/

/-- The body of the loop of `main`: the status it is left with, if it is left.  The flag `quit` is
set by the signal handler `Terminate`, at any time; the loop looks at it after each call. -/
def mainBody (quit : Log → Bool) (_ : Unit) : ServerM (Int ⊕ Unit) := do
  let retval ← serverHandler
  if retval ≠ 0 then pure (.inl retval)
  else do
    let quit ← peek fun _ log => quit log
    pure (if quit then .inl retval else .inr ())

/-- The loop of `main`.  `turns` bounds the iterations. -/
def mainLoop (quit : Log → Bool) (turns : ℕ) : ServerM Int :=
  loop (fun _ => True) (fun _ => 0) (mainBody quit) turns ()

/-- `main`, on its `argc` arguments.  The status of `VSFTPServerStop` is returned only if the loop
was left with zero. -/
def main (quit : Log → Bool) (turns : ℕ) (argv : List (List Byte)) : ServerM Int :=
  match argv with
  | [_, ipAddr, port, rootPath] => do
      let retval ← mainStart ⟨ipAddr, port, rootPath⟩
      if retval ≠ 0 then pure retval
      else do
        let retval ← mainLoop quit turns
        if retval = 0 then serverStop
        else do
          let _ ← serverStop
          pure retval
  | _ => pure (-1)

end VsFtp
