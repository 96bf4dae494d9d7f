import LavaTunnel.Info
import LavaTunnel.Server

/-!
# `LavaTunnel.Lists` — the lists of texts (`main.c`)

At start-up `main` reads the gimp texts and the names to ignore. It counts the newlines of a file, and then reads as
many entries as there are newlines, and one more: the texts with `fgets`, taking off the last character of each, the
names with `fscanf`. Both lists begin at 1.
-/

namespace LavaTunnel

open Wire

/-- `fgets(_, size, _)`: up to the next newline, which is kept, and `size - 1` characters at most. -/
def fgets (size : Nat) (file : Bytes) : Option Bytes × Bytes :=
  if file = [] then (none, [])
  else
    let n := min (size - 1) ((file.takeWhile (· ≠ 10)).length + 1)
    (some (file.take n), file.drop n)

/-- Write to memory. -/
def store (m : Nat → UInt8) (start : Nat) (bs : Bytes) : Nat → UInt8 :=
  fun i => if start ≤ i ∧ i < start + bs.length then bs.getD (i - start) 0 else m i

/-- `gimp[i]`. -/
def gimpRow (m : Nat → UInt8) (i : Nat) : Bytes := (List.range 256).map (fun j => m (256 * i + j))

/-- Read one text, and take its last character off. At the end of the file `fgets` leaves the row as it is. -/
def loadGimp (s : (Nat → UInt8) × Bytes) (i : Nat) : (Nat → UInt8) × Bytes :=
  let line := fgets 256 s.2
  let m := match line.1 with
    | some line => store s.1 (256 * i) (line ++ [0])
    | none => s.1
  (store m (256 * i + strlen (gimpRow m i) - 1) [0], line.2)

/-- Load the gimp texts. -/
def loadGimps (file : Option Bytes) (t : Tunnel) : Tunnel :=
  match file with
  | some file =>
      let n := file.count 10 + 1
      { t with gimpN := n, gimp := ((List.range' 1 n).foldl loadGimp (t.gimp, file)).1 }
  | none => { t with gimpN := -1 }

/-- Read one name. -/
def loadIgnore (s : (Nat → Bytes) × Bytes) (i : Nat) : (Nat → Bytes) × Bytes :=
  let name := scanWord s.2
  (match name.1 with
    | some name => Function.update s.1 i name
    | none => s.1, name.2)

/-- Load the names to ignore. -/
def loadIgnores (file : Option Bytes) (t : Tunnel) : Tunnel :=
  match file with
  | some file =>
      let n := file.count 10 + 1
      { t with ignoreN := n, ignores := ((List.range' 1 n).foldl loadIgnore (t.ignores, file)).1 }
  | none => { t with ignoreN := 0 }

end LavaTunnel
