import DocExcerpt.Storage.Basic
/-!
# Text files

A source or example file has to be text: no NUL among its first bytes, and UTF-8 throughout.
-/
namespace DocExcerpt

inductive ReadError where
  | binary (path : Path)
  | unreadable (path : Path) (cause : IoError)
  | notUtf8 (path : Path) (offset : Nat)
  deriving DecidableEq

def ReadError.message : ReadError → Text
  | .binary path => "refusing to read binary file ".toList ++ path.text
  | .unreadable path cause => "failed to read ".toList ++ path.text ++ ": ".toList ++ cause.message
  | .notUtf8 path offset =>
    path.text ++ " is not valid UTF-8 (invalid byte at offset ".toList ++ Nat.toDigits 10 offset ++ ")".toList

namespace Storage

/-- How many bytes are looked at to tell binary files. -/
def sniffed : Nat := 1024

def looksBinary (bytes : List UInt8) : Bool := (bytes.take sniffed).contains 0

def isBinary (s : Storage) (p : Path) : Bool :=
  match s.read p with
  | .ok bytes => looksBinary bytes
  | .error _ => false

def readText (s : Storage) (p : Path) : Except ReadError Text :=
  match s.read p with
  | .error e => .error (.unreadable p e)
  | .ok bytes =>
    if looksBinary bytes then .error (.binary p)
    else (Utf8.decode bytes).mapError (ReadError.notUtf8 p)

end Storage
end DocExcerpt
