import Zeos.Screen

/-!
# The keyboard

Where the interrupt routine shows the keys, and what becomes of the text of the console.
-/

namespace Zeos.Screen

/-- `char_map`, in rows of eight. -/
def charMap : List Byte :=
  [0, 0, 49, 50, 51, 52, 53, 54,
    55, 56, 57, 48, 39, 161, 0, 0,
    113, 119, 101, 114, 116, 121, 117, 105,
    111, 112, 96, 43, 0, 0, 97, 115,
    100, 102, 103, 104, 106, 107, 108, 241,
    0, 186, 0, 231, 122, 120, 99, 118,
    98, 110, 109, 44, 46, 45, 0, 42,
    0, 0, 0, 0, 0, 0, 0, 0,
    0, 0, 0, 0, 0, 0, 0, 55,
    56, 57, 45, 52, 53, 54, 43, 49,
    50, 51, 48, 0, 0, 0, 60, 0,
    0, 0, 0, 0, 0, 0, 0, 0,
    0, 0]

/-- `char_map[i]`, also for the numbers of keys that it has no entry for: then the byte is one of
those behind it in memory. -/
def keyChar (behind : Nat → Byte) (i : Nat) : Byte := charMap.getD i (behind i)

/-- `keyboard_routine`, with the byte that the port gives. -/
def keyboardRoutine (behind : Nat → Byte) (s : Screen) (c : Byte) : Screen :=
  if c &&& 0x80 ≠ 0 then printcXy s 0 0 (keyChar behind (c &&& 0x7f).toNat) else s

/-- What shows something: the kernel prints a text, or a key is pressed or released.  What is behind
`char_map` are variables (`y` of the console may be the first of them), so that each key finds its
own bytes there. -/
inductive Event
  | printc (c : Byte)
  | printk (string : List Byte)
  | sysWriteConsole (buffer : Nat → Byte) (size : Int)
  | key (behind : Nat → Byte) (c : Byte)

namespace Event

def perform (s : Screen) : Event → Screen
  | printc c => Screen.printc s c
  | printk string => Screen.printk s string
  | sysWriteConsole buffer size => (Screen.sysWriteConsole s buffer size).1
  | key behind c => keyboardRoutine behind s c

/-- The call with the same effect. -/
def call : Event → Call
  | printc c => .printc c
  | printk string => .printk string
  | sysWriteConsole buffer size => .sysWriteConsole buffer size
  | key behind c => if c &&& 0x80 ≠ 0 then .printcXy 0 0 (keyChar behind (c &&& 0x7f).toNat)
      else .printk []

/-- The text that is printed. -/
def text : Event → List Byte
  | printc c => [c]
  | printk string => string.takeWhile (· ≠ 0)
  | sysWriteConsole buffer size => (List.range size.toNat).map buffer
  | key _ _ => []

variable {event : Event} {events : List Event}

theorem perform_eq (s : Screen) : event.perform s = Screen.perform s event.call := by
  cases event with
  | key behind c =>
      rw [perform, keyboardRoutine, call]
      split_ifs <;> rfl
  | _ => rfl

theorem text_call : event.call.text = event.text := by
  cases event with
  | key behind c =>
      rw [call]
      split_ifs <;> rfl
  | _ => rfl

theorem onScreen : event.call.OnScreen := by
  cases event with
  | key behind c =>
      rw [call]
      split_ifs
      · exact ⟨by decide, by decide⟩
      · trivial
  | _ => trivial

theorem foldl_perform (s : Screen) :
    events.foldl Event.perform s = (events.map call).foldl Screen.perform s := by
  rw [List.foldl_map]
  exact List.foldl_ext _ _ s fun s event _ => perform_eq s

theorem flatMap_text : (events.map call).flatMap Call.text = events.flatMap text := by
  rw [List.flatMap_map]
  exact List.flatMap_congr fun event _ => text_call

end Event

/-! ## What is to be seen -/

/-- The halfwords of video memory after stores. -/
def videoMemory (mem : Word → BitVec 16) (video : List (Word × BitVec 16)) : Word → BitVec 16 :=
  video.foldl (fun mem write => Function.update mem write.1 write.2) mem

/-- The cell in which keys are shown. -/
abbrev corner : Word := 0xb8000

/-- All is to be seen alike but for the corner. -/
def Alike (mem mem' : Word → BitVec 16) : Prop := ∀ a, a ≠ corner → mem a = mem' a

variable {mem mem' : Word → BitVec 16}

theorem videoMemory_append (video video' : List (Word × BitVec 16)) :
    videoMemory mem (video ++ video') = videoMemory (videoMemory mem video) video' :=
  List.foldl_append

theorem layout_append (before text more : List Byte) :
    layout before (text ++ more) = layout before text ++ layout (before ++ text) more := by
  induction text generalizing before with
  | nil => rw [List.append_nil]; rfl
  | cons c text induction =>
      rw [List.cons_append, layout, layout, induction, List.append_assoc, List.append_assoc]
      rfl

namespace Alike

theorem videoMemory (alike : Alike mem mem') (video : List (Word × BitVec 16)) :
    Alike (videoMemory mem video) (Screen.videoMemory mem' video) := by
  induction video generalizing mem mem' with
  | nil => exact alike
  | cons write video induction =>
      refine induction fun a other => ?_
      dsimp only
      rw [Function.update_apply, Function.update_apply, alike a other]

theorem key (alike : Alike mem mem') (c : Byte) :
    Alike (Screen.videoMemory mem (written (0, 0) c)) mem' := by
  intro a other
  rw [written]
  split_ifs
  · exact alike a other
  · exact (Function.update_of_ne other _ _).trans (alike a other)

/-- A key leaves its cell in the corner, and a text is laid out with or without keys before it. -/
theorem event (alike : Alike mem mem') (before : List Byte) (event : Event) :
    Alike (Screen.videoMemory mem (event.call.writes before))
      (Screen.videoMemory mem' (layout before event.text)) := by
  cases event with
  | key behind c =>
      rw [Event.call]
      split_ifs
      · exact alike.key _
      · exact alike
  | _ => exact alike.videoMemory _

theorem events (alike : Alike mem mem') (before : List Byte) (events : List Event) :
    Alike (Screen.videoMemory mem (Call.allWrites before (events.map Event.call)))
      (Screen.videoMemory mem' (layout before (events.flatMap Event.text))) := by
  induction events generalizing mem mem' before with
  | nil => exact alike
  | cons event events induction =>
      rw [List.map_cons, Call.allWrites, List.flatMap_cons, layout_append, videoMemory_append,
        videoMemory_append, Event.text_call]
      exact induction (alike.event before event) _

end Alike

/-- Whatever keys are pressed and released while texts are printed, also keys that `char_map` does
not know and whatever is behind it then, the text goes on where it would without them, and outside
of the corner the screen shows the text as if no key had been touched. -/
theorem text_undisturbed (mem : Word → BitVec 16) (events : List Event) :
    let s := events.foldl Event.perform boot
    (s.x.toNat, s.y.toNat) = position (events.flatMap Event.text) ∧
      Alike (videoMemory mem s.video)
        (videoMemory mem (layout [] (events.flatMap Event.text))) := by
  intro s
  have calls : s = (events.map Event.call).foldl perform boot := Event.foldl_perform boot
  have laid : LaidOut _ _ ((events.map Event.call).foldl perform boot) :=
    laidOut_boot.run fun call member => by
      obtain ⟨event, _, rfl⟩ := List.mem_map.mp member
      exact Event.onScreen
  rw [← calls, Event.flatMap_text] at laid
  refine ⟨laid.cursor, ?_⟩
  rw [laid.video_eq]
  exact Alike.events (fun _ _ => rfl) [] events

/-- While a line is printed the key with number 16 is released, and twice one that has no
character. -/
example :
    let keys := [Event.printk [65, 10], .key (fun _ => 63) 0x90, .key (fun _ => 63) 0xff,
      .key (fun _ => 64) 0xff, .printc 66]
    let s := keys.foldl Event.perform boot
    s.port = [65, 10, 113, 63, 64, 66] ∧ (s.x, s.y) = (1, 20) := by decide

end Zeos.Screen
