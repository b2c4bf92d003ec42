/-
# Finding symbols in the target

`readMappings` reads `/proc/<pid>/maps` line by line, `loadBias` compares a mapping with the
segments of the file that is mapped, and `symbolFromModule` adds what it finds to the value of
a dynamic symbol.  Strings are those of Go, lists of bytes.  A file that the loader opens is
given as what `debug/elf` returns for it.
-/

import Pydump.Injector.Arguments
import Pydump.Lib.Utf8

namespace Pydump
namespace Injector

/-- An error of the loader. -/
inductive Failure
  /-- `syscall.Errno` -/
  | errno (code : ℕ)
  /-- `errors.New`, and `fmt.Errorf` without `%w`. -/
  | text (message : List UInt8)
  /-- `fmt.Errorf("context: %w", cause)` -/
  | wrapped (context : List UInt8) (cause : Failure)
  /-- `errors.Join` of one error that is not nil. -/
  | alone (cause : Failure)
  /-- `errors.Join` of two. -/
  | joined (first second : Failure)
  deriving DecidableEq

/-- An error with this text. -/
def Failure.ofText (message : String) : Failure := .text (Utf8.encode message)

/-! ### Strings -/

/-- `strings.Split(s, separator)` for a separator of one byte. -/
def split (separator : UInt8) : List UInt8 → List (List UInt8)
  | [] => [[]]
  | b :: bytes =>
    if b = separator then [] :: split separator bytes
    else
      match split separator bytes with
      | [] => [[b]]
      | piece :: pieces => (b :: piece) :: pieces

/-- `strings.Join(pieces, separator)` -/
def join (separator : List UInt8) : List (List UInt8) → List UInt8
  | [] => []
  | [piece] => piece
  | piece :: pieces => piece ++ (separator ++ join separator pieces)

/-- The bytes of the white space at the beginning of `s`, 0 where there is none: the runes of
`unicode.IsSpace` in UTF-8. -/
def spaceWidth : List UInt8 → ℕ
  | 0xC2 :: 0x85 :: _ | 0xC2 :: 0xA0 :: _ => 2
  | 0xE1 :: 0x9A :: 0x80 :: _ => 3
  | 0xE2 :: 0x80 :: b :: _ =>
    if b ∈ [0x80, 0x81, 0x82, 0x83, 0x84, 0x85, 0x86, 0x87, 0x88, 0x89, 0x8A, 0xA8, 0xA9, 0xAF] then 3 else 0
  | 0xE2 :: 0x81 :: 0x9F :: _ => 3
  | 0xE3 :: 0x80 :: 0x80 :: _ => 3
  | b :: _ => if b ∈ [0x09, 0x0A, 0x0B, 0x0C, 0x0D, 0x20] then 1 else 0
  | [] => 0

/-- The fields of `s` behind the bytes of one that has begun, where `skip` bytes are left of
a white space. -/
def fieldsFrom (skip : ℕ) (field : List UInt8) : List UInt8 → List (List UInt8)
  | [] => if field = [] then [] else [field]
  | b :: bytes =>
    match skip with
    | skip + 1 => fieldsFrom skip field bytes
    | 0 =>
      match spaceWidth (b :: bytes) with
      | 0 => fieldsFrom 0 (field ++ [b]) bytes
      | width + 1 => if field = [] then fieldsFrom width [] bytes else field :: fieldsFrom width [] bytes

/-- `strings.Fields(s)` -/
def fields (s : List UInt8) : List (List UInt8) := fieldsFrom 0 [] s

/-- `strings.TrimSuffix(s, suffix)` -/
def trimSuffix (suffix s : List UInt8) : List UInt8 := if suffix <:+ s then s.take (s.length - suffix.length) else s

/-- `strings.Contains(s, part)` -/
def contains (s part : List UInt8) : Bool := s.tails.any part.isPrefixOf

def hexValue (b : UInt8) : Option ℕ :=
  if 0x30 ≤ b ∧ b ≤ 0x39 then some (b.toNat - 0x30)
  else if 0x61 ≤ b ∧ b ≤ 0x66 then some (b.toNat - 0x61 + 10)
  else if 0x41 ≤ b ∧ b ≤ 0x46 then some (b.toNat - 0x41 + 10)
  else none

/-- `strconv.ParseUint(s, 16, 64)` -/
def parseHex (s : List UInt8) : Option UInt64 :=
  if s = [] then none
  else
    match s.foldlM (fun value b => (hexValue b).map (16 * value + ·)) 0 with
    | some value => if value < 2 ^ 64 then some (.ofNat value) else none
    | none => none

/-- `filepath.Base(path)` -/
def base (path : List UInt8) : List UInt8 :=
  if path = [] then [0x2E]
  else
    let name := ((path.reverse.dropWhile (· = 0x2F)).takeWhile (· ≠ 0x2F)).reverse
    if name = [] then [0x2F] else name

/-- The elements of a path that `filepath.Clean` keeps, the last one first. -/
def cleanElements (rooted : Bool) (kept : List (List UInt8)) (element : List UInt8) : List (List UInt8) :=
  if element = [] ∨ element = [0x2E] then kept
  else if element = [0x2E, 0x2E] then
    match kept with
    | top :: below => if top = [0x2E, 0x2E] then element :: kept else below
    | [] => if rooted then [] else [element]
  else element :: kept

/-- `filepath.Clean(path)` -/
def clean (path : List UInt8) : List UInt8 :=
  let rooted := path.head? = some 0x2F
  let elements := ((split 0x2F path).foldl (cleanElements rooted) []).reverse
  let cleaned := (if rooted then [0x2F] else []) ++ join [0x2F] elements
  if cleaned = [] then [0x2E] else cleaned

/-! ### Mappings -/

/-- `mapping` -/
structure Mapping where
  start : UInt64
  offset : UInt64
  path : List UInt8
  deriving DecidableEq

/-- `" (deleted)"` -/
def deletedSuffix : List UInt8 := [0x20, 0x28, 0x64, 0x65, 0x6C, 0x65, 0x74, 0x65, 0x64, 0x29]

/-- One line of the mappings, where it is of a file. -/
def parseMapping (line : List UInt8) : Option Mapping :=
  let fields := fields line
  if fields.length < 6 ∨ ¬[0x2F] <+: fields.getD 5 [] then none
  else
    match split 0x2D (fields.getD 0 []) with
    | low :: _ :: _ =>
      match parseHex low, parseHex (fields.getD 2 []) with
      | some start, some offset => some ⟨start, offset, trimSuffix deletedSuffix (join [0x20] (fields.drop 5))⟩
      | _, _ => none
    | _ => none

/-- The loop of `readMappings` over the lines of the file. -/
def parseMappings (content : List UInt8) : List Mapping := (split 0x0A content).filterMap parseMapping

def uniquePaths (maps : List Mapping) : List (List UInt8) :=
  maps.foldl (fun result mapped => if mapped.path ∈ result then result else result ++ [mapped.path]) []

/-! ### Modules -/

/-- `elf.Prog` -/
structure Prog where
  isLoad : Bool
  off : UInt64
  vaddr : UInt64
  deriving DecidableEq

/-- `elf.Symbol` -/
structure ElfSymbol where
  name : String
  /-- `Section != elf.SHN_UNDEF` -/
  isDefined : Bool
  value : UInt64
  deriving DecidableEq

/-- `elf.File`; `DynamicSymbols` may fail. -/
structure ElfFile where
  entry : UInt64
  progs : List Prog
  dynamicSymbols : Option (List ElfSymbol)

/-- `remoteSymbol` -/
structure RemoteSymbol where
  address : UInt64
  entry : UInt64
  deriving DecidableEq

/-- `address &^ (pageSize - 1)` -/
def pageFloor (address : UInt64) : UInt64 := address &&& ~~~0xFFF

def loadBias (file : ElfFile) (maps : List Mapping) (path : List UInt8) : Option UInt64 :=
  maps.findSome? fun mapped =>
    if mapped.path ≠ path then none
    else file.progs.findSome? fun program =>
      if program.isLoad ∧ mapped.offset = pageFloor program.off then some (mapped.start - pageFloor program.vaddr)
      else none

/-- `symbolFromModule`, where `file` is what `elf.Open` returns for the path. -/
def symbolFromModule (file : Option ElfFile) (maps : List Mapping) (path : List UInt8) (names : List String) :
    Option RemoteSymbol := do
  let file ← file
  let bias ← loadBias file maps path
  let symbols ← file.dynamicSymbols
  names.findSome? fun name => symbols.findSome? fun symbol =>
    if symbol.name = name ∧ symbol.isDefined then some ⟨bias + symbol.value, bias + file.entry⟩ else none

/-- `findSymbol`, with the files of the target. -/
def findSymbol (files : List UInt8 → Option ElfFile) (maps : List Mapping) (names : List String) :
    Except Failure RemoteSymbol :=
  let found := ["libc.so", "libdl.so"].findSome? fun preferred => (uniquePaths maps).findSome? fun path =>
    if contains (base path) (Utf8.encode preferred) then symbolFromModule (files path) maps path names else none
  match found with
  | some symbol => .ok symbol
  | none => .error (.ofText ("none of " ++ ", ".intercalate names ++ " found in loaded libc/libdl"))

def findSymbolInPath (files : List UInt8 → Option ElfFile) (maps : List Mapping) (path : List UInt8) (name : String) :
    Except Failure RemoteSymbol :=
  let cleanPath := trimSuffix deletedSuffix path
  let found := (uniquePaths maps).findSome? fun mapped =>
    if mapped ≠ cleanPath ∧ clean mapped ≠ clean cleanPath then none
    else symbolFromModule (files mapped) maps mapped [name]
  match found with
  | some symbol => .ok symbol
  | none => .error (.text (Utf8.encode s!"symbol {name} not found in loaded Agent " ++ path))

end Injector
end Pydump
