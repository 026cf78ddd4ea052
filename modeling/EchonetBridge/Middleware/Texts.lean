import EchonetBridge.Api.Texts
import EchonetBridge.Epc.Families
import EchonetBridge.Middleware.Node

/-!
# Middleware/Texts — what lists of objects and events are shown as

An announcement is shown with the addresses of its objects, and with the names of their groups and
classes.  Naming them never fails, and events are told apart by their texts
(`Event.display_eq_iff`).
-/

namespace Echonet

open Outcome Rendering

/-! ## Lists of objects -/

namespace EOJVec

/-- One pass of the loop over a list: each object but the first has a comma in front of it. -/
def displayItem (f : String) (entry : EOJ × ℕ) : String :=
  (if entry.2 > 0 then f ++ ", " else f) ++ entry.1.display

/-- The text a list of objects is shown as. -/
def display (eojs : EOJVec) : String := eojs.zipIdx.foldl displayItem "[" ++ "]"

theorem foldl_displayItem (eojs : List EOJ) (i : ℕ) (f : String) :
    ((eojs.zipIdx (i + 1)).foldl displayItem f ++ "]").toList
      = f.toList ++ others ", ".toList "]".toList (fun eoj => eoj.display.toList) eojs := by
  induction eojs generalizing i f with
  | nil =>
    rw [List.zipIdx_nil, List.foldl_nil, String.toList_append]
    rfl
  | cons eoj eojs ih =>
    rw [List.zipIdx_cons, List.foldl_cons, ih, displayItem, if_pos (Nat.succ_pos i), others]
    simp only [String.toList_append, List.append_assoc]

theorem toList_display (eojs : EOJVec) : eojs.display.toList =
    "[".toList ++ listed ", ".toList "]".toList (fun eoj => eoj.display.toList) eojs := by
  rw [display]
  cases eojs with
  | nil => rfl
  | cons eoj eojs =>
    rw [List.zipIdx_cons, List.foldl_cons, foldl_displayItem, displayItem,
      if_neg (Nat.lt_irrefl 0), String.toList_append, List.append_assoc]
    rfl

/-- **Lists of objects are told apart** by their texts. -/
theorem display_injective : Function.Injective display := by
  intro eojs eojs' h
  rw [← String.toList_inj, toList_display, toList_display] at h
  have hends : EndsBefore (fun _ => True) fun eoj : EOJ => eoj.display.toList :=
    EOJ.selfDelimiting_display.endsBefore
  refine (hends.listed (by decide) (fun _ => trivial) (fun _ => trivial) fun eoj => ?_).injective
    (List.append_cancel_left h)
  simp only [EOJ.display, String.toList_append, List.append_assoc]
  exact diverge_cons (by decide) _ _

end EOJVec

/-! ## Groups and classes -/

namespace NodeGroupClass

def unknown : String := "Unknown"

def classControlController : NodeGroupClass := ⟨eojClassGroupControl, 0xff⟩

/-- Get the display name for a group. -/
def getGroupDisplayName (self : NodeGroupClass) : Option String :=
  match self.classGroupCode with
  | 0x00 => some "Sensor"
  | 0x01 => some "Air Conditioning"
  | 0x02 => some "Facility"
  | 0x03 => some "Housework"
  | 0x04 => some "Health"
  | 0x05 => some "Control"
  | 0x06 => some "Audio Visual"
  | 0x0e => some "Profile"
  | 0x0f => some "User"
  | _ => none

/-- Generate a displayable version of the group and the class. -/
def toDisplay (self : NodeGroupClass) : Outcome Empty (String × String) := do
  let exact ←
    if self = classControlController then do
      let group ← unwrap self.getGroupDisplayName
      pure (some (group, "Controller"))
    else if self = classProfileNodeProfile then do
      let group ← unwrap self.getGroupDisplayName
      pure (some (group, "Node Profile"))
    else pure none
  match exact with
  | some names => pure names
  | none => do
    let group ← unwrap (self.getGroupDisplayName.orElse fun _ => some unknown)
    pure (group, unknown)

def display (self : NodeGroupClass) : Outcome Empty String := do
  let (groupDesc, classDesc) ← self.toDisplay
  pure ("Group '" ++ groupDesc ++ "' Class '" ++ classDesc ++ "'")

/-- The display name for a class. -/
def className (self : NodeGroupClass) : String :=
  if self = classControlController then "Controller"
  else if self = classProfileNodeProfile then "Node Profile"
  else unknown

/-- Two classes have a name, and both of them are in groups that have one. -/
theorem toDisplay_eq (self : NodeGroupClass) :
    self.toDisplay = .ok (self.getGroupDisplayName.getD unknown, self.className) := by
  rw [toDisplay, className]
  by_cases hcontrol : self = classControlController
  · rw [if_pos hcontrol, if_pos hcontrol, hcontrol]
    rfl
  by_cases hprofile : self = classProfileNodeProfile
  · rw [if_neg hcontrol, if_neg hcontrol, if_pos hprofile, if_pos hprofile, hprofile]
    rfl
  rw [if_neg hcontrol, if_neg hcontrol, if_neg hprofile, if_neg hprofile]
  cases self.getGroupDisplayName with
  | none => rfl
  | some group => rfl

/-- The names in print. -/
def text (self : NodeGroupClass) : String :=
  "Group '" ++ self.getGroupDisplayName.getD unknown ++ "' Class '" ++ self.className ++ "'"

theorem display_eq (self : NodeGroupClass) : self.display = .ok self.text := by
  rw [display, toDisplay_eq]
  rfl

/-- The class and group of an address. -/
def ofEoj (value : EOJ) : NodeGroupClass := ⟨value.classGroupCode, value.classCode⟩

end NodeGroupClass

/-! ## Events -/

namespace Event

/-- Display helper for ECHONET Lite events. -/
def displayMessage (srcIp : String) (seoj : EOJ) (dstIp : String) (deoj : EOJ) :
    Outcome Empty String := do
  let seojDisplay ← (NodeGroupClass.ofEoj seoj).display
  let deojDisplay ← (NodeGroupClass.ofEoj deoj).display
  pure ("Announce " ++ srcIp ++ "/" ++ seoj.display ++ " (" ++ seojDisplay ++ ") -> " ++ dstIp ++
    "/" ++ deoj.display ++ " (" ++ deojDisplay ++ ")")

/-- The text an event is shown as. -/
def display : Event → Outcome Empty String
  | startup => pure "Startup"
  | shutdown => pure "Shutdown"
  | announce seoj deoj => displayMessage "*" seoj "multicast" deoj

/-- What a message is shown as. -/
def messageText (srcIp : String) (seoj : EOJ) (dstIp : String) (deoj : EOJ) : String :=
  "Announce " ++ srcIp ++ "/" ++ seoj.display ++ " (" ++ (NodeGroupClass.ofEoj seoj).text ++
    ") -> " ++ dstIp ++ "/" ++ deoj.display ++ " (" ++ (NodeGroupClass.ofEoj deoj).text ++ ")"

theorem displayMessage_eq (srcIp : String) (seoj : EOJ) (dstIp : String) (deoj : EOJ) :
    displayMessage srcIp seoj dstIp deoj = .ok (messageText srcIp seoj dstIp deoj) := by
  rw [displayMessage, NodeGroupClass.display_eq, ok_bind, NodeGroupClass.display_eq, ok_bind]
  rfl

section Message

variable {srcIp dstIp : String} {seoj seoj' deoj deoj' : EOJ}

/-- The pieces of a message. -/
theorem toList_messageText : (messageText srcIp seoj dstIp deoj).toList =
    "Announce ".toList ++ (srcIp.toList ++ ("/".toList ++ (seoj.display.toList ++
      (" (".toList ++ ((NodeGroupClass.ofEoj seoj).text.toList ++ (") -> ".toList ++
        (dstIp.toList ++ ("/".toList ++ (deoj.display.toList ++ (" (".toList ++
          ((NodeGroupClass.ofEoj deoj).text.toList ++ ")".toList))))))))))) := by
  have htext : messageText srcIp seoj dstIp deoj = "Announce " ++ srcIp ++ "/" ++ seoj.display ++
      " (" ++ (NodeGroupClass.ofEoj seoj).text ++ ") -> " ++ dstIp ++ "/" ++ deoj.display ++ " (" ++
        (NodeGroupClass.ofEoj deoj).text ++ ")" := rfl
  rw [htext]
  simp only [String.toList_append, List.append_assoc]

theorem messageText_inj :
    messageText srcIp seoj dstIp deoj = messageText srcIp seoj' dstIp deoj' ↔
      seoj = seoj' ∧ deoj = deoj' := by
  refine ⟨fun h => ?_, fun ⟨hseoj, hdeoj⟩ => by rw [hseoj, hdeoj]⟩
  rw [← String.toList_inj, toList_messageText, toList_messageText] at h
  iterate 3 replace h := List.append_cancel_left h
  -- The names of the group and the class follow from the address, so that they are cancelled.
  obtain ⟨rfl, h⟩ := EOJ.selfDelimiting_display.split h
  iterate 5 replace h := List.append_cancel_left h
  exact ⟨rfl, (EOJ.selfDelimiting_display.split h).1⟩

/-- Messages begin with a word of their own. -/
theorem messageText_ne {word : String} (h : Diverge "Announce ".toList word.toList) :
    messageText srcIp seoj dstIp deoj ≠ word := by
  intro heq
  rw [← String.toList_inj, toList_messageText, ← List.append_nil word.toList] at heq
  exact h.append_ne _ _ heq

end Message

/-- The text of an event. -/
def text : Event → String
  | startup => "Startup"
  | shutdown => "Shutdown"
  | announce seoj deoj => messageText "*" seoj "multicast" deoj

theorem display_eq (e : Event) : e.display = .ok e.text := by
  cases e with
  | startup => rfl
  | shutdown => rfl
  | announce seoj deoj => exact displayMessage_eq "*" seoj "multicast" deoj

theorem text_injective : Function.Injective text := by
  have hstartup : Diverge "Announce ".toList "Startup".toList := by decide
  have hshutdown : Diverge "Announce ".toList "Shutdown".toList := by decide
  have hne : "Startup" ≠ "Shutdown" := by decide
  intro e e' h
  cases e with
  | startup =>
    cases e' with
    | startup => rfl
    | shutdown => exact absurd h hne
    | announce seoj' deoj' => exact absurd h.symm (messageText_ne hstartup)
  | shutdown =>
    cases e' with
    | startup => exact absurd h.symm hne
    | shutdown => rfl
    | announce seoj' deoj' => exact absurd h.symm (messageText_ne hshutdown)
  | announce seoj deoj =>
    cases e' with
    | startup => exact absurd h (messageText_ne hstartup)
    | shutdown => exact absurd h (messageText_ne hshutdown)
    | announce seoj' deoj' =>
      obtain ⟨hseoj, hdeoj⟩ := messageText_inj.mp h
      rw [hseoj, hdeoj]

/-- **Events are told apart** by their texts, and every event has one. -/
theorem display_eq_iff (e e' : Event) : IsOk e.display ∧ (e.display = e'.display ↔ e = e') := by
  rw [display_eq, display_eq, Outcome.ok.injEq]
  exact ⟨isOk_ok _, text_injective.eq_iff⟩

end Event

end Echonet
