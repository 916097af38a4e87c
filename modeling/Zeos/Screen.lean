import Zeos.Console

/-!
# The screen

The cursor of `io.c` and the stores to video memory.  Text goes on where the text before it has
ended; `printc_xy`, which interrupt handlers use, writes somewhere else in between.
-/

namespace Zeos

/-- `x` and `y`, and what has been written so far: the halfwords to video memory and the bytes to
port 0xe9. -/
structure Screen where
  x : Byte
  y : Byte
  video : List (Word × BitVec 16)
  port : List Byte

namespace Screen

abbrev numColumns : Nat := 80
abbrev numRows : Nat := 25
abbrev newline : Byte := 10

/-- `Byte x, y=19`. -/
def boot : Screen := ⟨0, 19, [], []⟩

/-- `(y+1)%NUM_ROWS`. -/
def nextRow (y : Byte) : Byte := BitVec.ofNat 8 ((y.toNat + 1) % numRows)

/-- The character with its attribute. -/
def attributed (c : Byte) : BitVec 16 := (c.signExtend 16 &&& 0x00ff) ||| 0x0200

def printc (s : Screen) (c : Byte) : Screen :=
  let s := { s with port := s.port ++ [c] }
  if c = newline then { s with x := 0, y := nextRow s.y }
  else
    let screen : Word :=
      0xb8000 + (s.y.setWidth 32 * BitVec.ofNat 32 numColumns + s.x.setWidth 32) * 2
    let s := { s with video := s.video ++ [(screen, attributed c)], x := s.x + 1 }
    if numColumns ≤ s.x.toNat then { s with x := 0, y := nextRow s.y } else s

def printcXy (s : Screen) (mx my c : Byte) : Screen :=
  { printc { s with x := mx, y := my } c with x := s.x, y := s.y }

/-- `printk`, with the bytes of the string up to its end. -/
def printk (s : Screen) : List Byte → Screen
  | [] => s
  | c :: string => if c = 0 then s else printk (printc s c) string

/-- `sys_write_console`, with the value returned. -/
def sysWriteConsole (s : Screen) (buffer : Nat → Byte) (size : Int) : Screen × Int :=
  ((List.range size.toNat).foldl (fun s i => printc s (buffer i)) s, size)

/-- The calls that write to the screen. -/
inductive Call
  | printc (c : Byte)
  | printk (string : List Byte)
  | sysWriteConsole (buffer : Nat → Byte) (size : Int)
  | printcXy (mx my c : Byte)

def perform (s : Screen) : Call → Screen
  | .printc c => printc s c
  | .printk string => printk s string
  | .sysWriteConsole buffer size => (sysWriteConsole s buffer size).1
  | .printcXy mx my c => printcXy s mx my c

/-- `printc_xy` is called with coordinates of the screen. -/
def Call.OnScreen : Call → Prop
  | .printcXy mx my _ => mx.toNat < numColumns ∧ my.toNat < numRows
  | _ => True

/-! ## The layout of a text -/

/-- Column and row. -/
abbrev Cell := Nat × Nat

/-- One column on, or to the beginning of the next row. -/
def advance (cell : Cell) (c : Byte) : Cell :=
  if c = newline ∨ cell.1 + 1 = numColumns then (0, (cell.2 + 1) % numRows)
  else (cell.1 + 1, cell.2)

/-- Where the text goes on. -/
def position (text : List Byte) : Cell := text.foldl advance (0, 19)

/-- What a character at a cell writes. -/
def written (cell : Cell) (c : Byte) : List (Word × BitVec 16) :=
  if c = newline then []
  else [(BitVec.ofNat 32 (0xb8000 + (cell.2 * numColumns + cell.1) * 2), attributed c)]

/-- What a text writes after another text. -/
def layout (before : List Byte) : List Byte → List (Word × BitVec 16)
  | [] => []
  | c :: text => written (position before) c ++ layout (before ++ [c]) text

namespace Call

/-- The part of a call in the text of the console. -/
def text : Call → List Byte
  | .printc c => [c]
  | .printk string => string.takeWhile (· ≠ 0)
  | .sysWriteConsole buffer size => (List.range size.toNat).map buffer
  | .printcXy _ _ _ => []

/-- What a call writes after a text. -/
def writes (before : List Byte) : Call → List (Word × BitVec 16)
  | .printcXy mx my c => written (mx.toNat, my.toNat) c
  | call => layout before call.text

/-- What calls write after a text. -/
def allWrites (before : List Byte) : List Call → List (Word × BitVec 16)
  | [] => []
  | call :: calls => call.writes before ++ allWrites (before ++ call.text) calls

end Call

/-- The screen after a text, with everything that has been written. -/
structure LaidOut (text : List Byte) (video : List (Word × BitVec 16)) (s : Screen) : Prop where
  x : s.x.toNat < numColumns
  y : s.y.toNat < numRows
  cursor : (s.x.toNat, s.y.toNat) = position text
  video_eq : s.video = video
  inside : ∀ write ∈ video, 0xb8000 ≤ write.1.toNat ∧
    write.1.toNat < 0xb8000 + 2 * numColumns * numRows ∧ write.1.toNat % 2 = 0

variable {s : Screen} {text : List Byte} {video : List (Word × BitVec 16)}

theorem laidOut_boot : LaidOut [] [] boot where
  x := by decide
  y := by decide
  cursor := rfl
  video_eq := rfl
  inside _ member := absurd member List.not_mem_nil

theorem toNat_nextRow (y : Byte) : (nextRow y).toNat = (y.toNat + 1) % numRows := by
  have below := Nat.mod_lt (y.toNat + 1) (by decide : 0 < numRows)
  rw [nextRow, BitVec.toNat_ofNat]
  exact Nat.mod_eq_of_lt (below.trans (by decide))

theorem position_concat (c : Byte) : position (text ++ [c]) = advance (position text) c := by
  rw [position, List.foldl_append]
  rfl

/-- The address of a cell is computed without a wrap around. -/
theorem address_eq (x y : Byte) :
    (0xb8000 + (y.setWidth 32 * BitVec.ofNat 32 numColumns + x.setWidth 32) * 2 : Word) =
      BitVec.ofNat 32 (0xb8000 + (y.toNat * numColumns + x.toNat) * 2) := by
  refine BitVec.eq_of_toNat_eq ?_
  have column := x.isLt
  have row := y.isLt
  have base : (0xb8000 : Word).toNat = 0xb8000 := rfl
  have two : (2 : Word).toNat = 2 := rfl
  simp only [numColumns, BitVec.toNat_add, BitVec.toNat_mul, BitVec.toNat_setWidth,
    BitVec.toNat_ofNat, base, two]
  omega

/-- A character is written at the cursor, which advances. -/
theorem printc_spec (s : Screen) (c : Byte) (inside : s.x.toNat < numColumns) :
    ((printc s c).x.toNat, (printc s c).y.toNat) = advance (s.x.toNat, s.y.toNat) c ∧
      (printc s c).video = s.video ++ written (s.x.toNat, s.y.toNat) c := by
  rw [printc, advance, written]
  dsimp only
  by_cases line : c = newline
  · rw [if_pos line, if_pos (.inl line), if_pos line, List.append_nil, toNat_nextRow]
    exact ⟨rfl, rfl⟩
  · rw [if_neg line, if_neg line, address_eq]
    have next : (s.x + 1).toNat = s.x.toNat + 1 := by
      rw [BitVec.toNat_add]
      simp only [numColumns] at inside
      exact Nat.mod_eq_of_lt (by show s.x.toNat + 1 < 2 ^ 8; omega)
    by_cases last : s.x.toNat + 1 = numColumns
    · rw [if_pos (by rw [next]; exact last.ge), if_pos (.inr last), toNat_nextRow]
      exact ⟨rfl, rfl⟩
    · rw [if_neg (by rw [next]; omega), if_neg (not_or.mpr ⟨line, last⟩), next]
      exact ⟨rfl, rfl⟩

theorem advance_inside {cell : Cell} (inside : cell.1 < numColumns ∧ cell.2 < numRows) (c : Byte) :
    (advance cell c).1 < numColumns ∧ (advance cell c).2 < numRows := by
  rw [advance]
  split_ifs with wraps
  · exact ⟨(by decide : 0 < numColumns), Nat.mod_lt _ (by decide)⟩
  · obtain ⟨_, before⟩ := not_or.mp wraps
    exact ⟨by omega, inside.2⟩

/-- A cell of the screen lies in video memory. -/
theorem written_inside {cell : Cell} (inside : cell.1 < numColumns ∧ cell.2 < numRows) {c : Byte} :
    ∀ write ∈ written cell c, 0xb8000 ≤ write.1.toNat ∧
      write.1.toNat < 0xb8000 + 2 * numColumns * numRows ∧ write.1.toNat % 2 = 0 := by
  intro write member
  obtain ⟨column, row⟩ := inside
  rw [written] at member
  split_ifs at member with line
  · exact absurd member List.not_mem_nil
  · rw [List.mem_singleton.mp member, BitVec.toNat_ofNat]
    simp only [numColumns, numRows] at column row ⊢
    omega

/-- One more cell of the screen is written. -/
theorem LaidOut.inside_append (laid : LaidOut text video s) {cell : Cell}
    (inside : cell.1 < numColumns ∧ cell.2 < numRows) (c : Byte) :
    ∀ write ∈ video ++ written cell c, 0xb8000 ≤ write.1.toNat ∧
      write.1.toNat < 0xb8000 + 2 * numColumns * numRows ∧ write.1.toNat % 2 = 0 := by
  intro write member
  rcases List.mem_append.mp member with before | new
  · exact laid.inside write before
  · exact written_inside inside write new

theorem LaidOut.printc (laid : LaidOut text video s) (c : Byte) :
    LaidOut (text ++ [c]) (video ++ written (position text) c) (printc s c) := by
  obtain ⟨cursor, written_eq⟩ := printc_spec s c laid.x
  have inside : s.x.toNat < numColumns ∧ s.y.toNat < numRows := ⟨laid.x, laid.y⟩
  have next := @advance_inside (s.x.toNat, s.y.toNat) inside c
  have stores := @LaidOut.inside_append _ _ _ laid (s.x.toNat, s.y.toNat) inside c
  rw [← cursor] at next
  rw [laid.cursor] at cursor written_eq stores
  exact ⟨next.1, next.2, by rw [cursor, position_concat], by rw [written_eq, laid.video_eq], stores⟩

theorem LaidOut.foldl (laid : LaidOut text video s) (more : List Byte) :
    LaidOut (text ++ more) (video ++ layout text more) (more.foldl Screen.printc s) := by
  induction more generalizing s text video with
  | nil =>
      rw [layout, List.append_nil, List.append_nil]
      exact laid
  | cons c more induction =>
      have rest := induction (laid.printc c)
      rw [layout, ← List.append_assoc]
      rwa [List.append_assoc, List.singleton_append] at rest

/-- The cursor is where it was. -/
theorem LaidOut.printcXy (laid : LaidOut text video s) {mx my : Byte} (c : Byte)
    (inside : mx.toNat < numColumns ∧ my.toNat < numRows) :
    LaidOut text (video ++ written (mx.toNat, my.toNat) c) (printcXy s mx my c) := by
  have written_eq := (printc_spec { s with x := mx, y := my } c inside.1).2
  exact ⟨laid.x, laid.y, laid.cursor, by rw [← laid.video_eq]; exact written_eq,
    laid.inside_append inside c⟩

theorem printk_eq (s : Screen) (string : List Byte) :
    printk s string = (string.takeWhile (· ≠ 0)).foldl printc s := by
  induction string generalizing s with
  | nil => rfl
  | cons c string induction =>
      rw [printk, List.takeWhile_cons]
      by_cases ends : c = 0
      · rw [if_pos ends, ends]
        rfl
      · rw [if_neg ends, induction, if_pos (by simpa using ends)]
        rfl

/-- A call that is not `printc_xy` prints its text character by character. -/
theorem perform_eq (s : Screen) (call : Call) (plain : ∀ mx my c, call ≠ .printcXy mx my c) :
    perform s call = call.text.foldl printc s := by
  cases call with
  | printc c => rfl
  | printk string => exact printk_eq s string
  | sysWriteConsole buffer size => exact (List.foldl_map ..).symm
  | printcXy mx my c => exact absurd rfl (plain mx my c)

theorem LaidOut.perform (laid : LaidOut text video s) {call : Call} (onScreen : call.OnScreen) :
    LaidOut (text ++ call.text) (video ++ call.writes text) (perform s call) := by
  cases call with
  | printcXy mx my c =>
      rw [Call.text, List.append_nil]
      exact laid.printcXy c onScreen
  | printc c => exact perform_eq s (.printc c) (by simp) ▸ laid.foldl _
  | printk string => exact perform_eq s (.printk string) (by simp) ▸ laid.foldl _
  | sysWriteConsole buffer size =>
      exact perform_eq s (.sysWriteConsole buffer size) (by simp) ▸ laid.foldl _

theorem LaidOut.run (laid : LaidOut text video s) {calls : List Call}
    (onScreen : ∀ call ∈ calls, call.OnScreen) :
    LaidOut (text ++ calls.flatMap Call.text) (video ++ Call.allWrites text calls)
      (calls.foldl Screen.perform s) := by
  induction calls generalizing s text video with
  | nil =>
      rw [Call.allWrites, List.flatMap_nil, List.append_nil, List.append_nil]
      exact laid
  | cons call calls induction =>
      have rest := induction (laid.perform (onScreen call List.mem_cons_self))
        fun other member => onScreen other (List.mem_cons_of_mem call member)
      rw [List.flatMap_cons, Call.allWrites, ← List.append_assoc, ← List.append_assoc]
      exact rest

/-- What `sys_write` gives to the console goes on after the text before it. -/
theorem sysWriteConsole_eq (s : Screen) (buffer : Nat → Byte) (size : Nat) :
    sysWriteConsole s buffer size = ((Console.sysWriteConsole buffer size).1.foldl printc s,
      ((Console.sysWriteConsole buffer size).2 : Int)) := by
  rw [sysWriteConsole, Console.sysWriteConsole, List.foldl_map]
  rfl

/-- After calls, and in a call after the first characters of its text: the cursor and all stores
stay on the screen, and a character goes to the cell that the text before it leads to, whatever
`printc_xy` writes in between. -/
theorem laidOut (calls : List Call) (onScreen : ∀ call ∈ calls, call.OnScreen) (text : List Byte) :
    LaidOut (calls.flatMap Call.text ++ text)
        (Call.allWrites [] calls ++ layout (calls.flatMap Call.text) text)
        (text.foldl printc (calls.foldl perform boot)) ∧
      ∀ (s : Screen) mx my c, (printcXy s mx my c).x = s.x ∧ (printcXy s mx my c).y = s.y :=
  ⟨(laidOut_boot.run onScreen).foldl text, fun _ _ _ _ => ⟨rfl, rfl⟩⟩

/-- A key is shown in the last cell of the screen while a line is printed. -/
theorem laidOut_key :
    LaidOut [65, newline, 66] (Call.allWrites [] [.printk [65, newline], .printcXy 79 24 67] ++
        layout [65, newline] [66])
      (printc (printcXy (printk boot [65, newline]) 79 24 67) 66) :=
  (laidOut [.printk [65, newline], .printcXy 79 24 67] (by simp [Call.OnScreen]) [66]).1

end Screen

end Zeos
