import Terminay.Lib.Entries
import Terminay.Lib.Outcome
import Terminay.Script.Json

/-!
# Setting paths and the edits of a settings object

A settings object lists its own fields. An edit names the paths it overwrites; at any
other path the edited object reads as before. A name that objects inherit is read as
absent.
-/

namespace Terminay.Settings
open Script Outcome

abbrev SettingsObject (ν : Type) := List (Str × Json ν)

inductive SettingAuthority where
  | server
  | connectionHost
  | deviceOverride
  | transient
deriving DecidableEq

def SettingAuthority.text : SettingAuthority → Str
  | server => js "server"
  | connectionHost => js "connection-host"
  | deviceOverride => js "device-override"
  | transient => js "transient"

def SERVER_SETTINGS : List String :=
  ["agentIntegration", "aiTabMetadata", "activityIndicators", "autoCloseTerminalOnExitZero",
    "convertEol", "dictation", "disableStdin", "fileViewer", "gitPushAgent", "homeDashboard",
    "pixel", "terminayMcp", "ignoreBracketedPasteMode", "keepTerminalsAfterQuit", "macros",
    "moveTerminalsIntoNewWorktreeFolders", "programSetTabTitles", "recording", "remoteAccess",
    "rightClickSelectsWord", "scrollback", "scrollOnEraseInDisplay", "scrollOnUserInput",
    "scrollSensitivity", "shell", "shellIntegration", "shellProfiles", "smoothScrollDuration",
    "tabStopWidth", "wordSeparator"]

def CONNECTION_HOST_SETTINGS : List String :=
  ["allowTransparency", "altClickMovesCursor", "customGlyphs", "cursorBlink",
    "cursorInactiveStyle", "cursorStyle", "cursorWidth", "drawBoldTextInBrightColors",
    "fastScrollSensitivity", "fontFamily", "fontSize", "fontWeight", "fontWeightBold",
    "keyboardShortcuts", "letterSpacing", "lineHeight", "macOptionClickForcesSelection",
    "macOptionIsMeta", "minimumContrastRatio", "rescaleOverlappingGlyphs", "screenReaderMode",
    "sidebar", "theme"]

def DEVICE_OVERRIDE_PATHS : List String := ["dictation.microphoneDeviceId"]

/-- `SETTING_AUTHORITY[name]` -/
def settingAuthority (name : Str) : Option SettingAuthority :=
  if (SERVER_SETTINGS.map js).contains name then some .server
  else if (CONNECTION_HOST_SETTINGS.map js).contains name then some .connectionHost
  else none

/-- `replace(/^settings\./, '')` -/
def stripSettings (path : Str) : Str :=
  if (js "settings.").isPrefixOf path then path.drop 9 else path

/-- `replace(/\.\.+/g, '.')` -/
def collapseDots : Str → Str
  | [] => []
  | [u] => [u]
  | u :: v :: rest =>
    if u = unit '.' ∧ v = unit '.' then collapseDots (v :: rest) else u :: collapseDots (v :: rest)

def dropDot : Str → Str
  | [] => []
  | u :: rest => if u = unit '.' then rest else u :: rest

/-- `normalizePath` of the classification. -/
def normalizeSettingPath (path : Str) : Str :=
  (dropDot (dropDot (collapseDots (stripSettings (trim path)))).reverse).reverse

def classifySetting (path : Str) : SettingAuthority :=
  let normalized := normalizeSettingPath path
  if (DEVICE_OVERRIDE_PATHS.map js).contains normalized then .deviceOverride
  else (settingAuthority ((normalized.splitOn (unit '.')).headD [])).getD .transient

def isServerSettingPath (path : Str) : Bool := classifySetting path = .server

def assertServerPath (path : Str) : Except Str Unit :=
  refuseIf (isServerSettingPath path = false)
    (js "setting path is " ++ (classifySetting path).text ++ js ", not server-owned")

variable {ν : Type}

/-- `split('.').filter(Boolean)` after the leading `settings.` is gone. -/
def pathParts (path : Str) : List Str :=
  ((stripSettings path).splitOn (unit '.')).filter fun part => !part.isEmpty

def readParts : Json ν → List Str → Option (Json ν)
  | value, [] => some value
  | .obj fields, key :: rest => (Entries.get fields key).bind fun value => readParts value rest
  | _, _ :: _ => none

def readPath (input : SettingsObject ν) (path : Str) : Option (Json ν) :=
  readParts (.obj input) (pathParts path)

def setParts : SettingsObject ν → List Str → Json ν → Except Str (SettingsObject ν)
  | _, [], _ => .error (js "setting path is empty")
  | fields, [key], value => .ok (Entries.set fields key value)
  | fields, key :: rest, value =>
    match Entries.get fields key with
    | some (.obj child) => do
      let child ← setParts child rest value
      .ok (Entries.set fields key (.obj child))
    | _ => .error (js "setting path does not address an object")

def setPath (current : SettingsObject ν) (path : Str) (value : Json ν) :
    Except Str (SettingsObject ν) :=
  setParts current (pathParts path) value

def childPath : Option Str → Str → Str
  | none, key => key
  | some path, key => path ++ js "." ++ key

mutual
def mergeValue : Option (Json ν) → Json ν → Str → Except Str (Json ν)
  | some (.obj current), .obj fields, path => do
    let merged ← mergeFields current fields (some path)
    .ok (.obj merged)
  | _, value, _ => .ok value
def mergeFields : SettingsObject ν → List (Str × Json ν) → Option Str →
    Except Str (SettingsObject ν)
  | result, [], _ => .ok result
  | result, (key, child) :: rest, path => do
    assertServerPath (childPath path key)
    let merged ← mergeValue (Entries.get result key) child (childPath path key)
    mergeFields (Entries.set result key merged) rest path
end

def mergePatch (current patch : SettingsObject ν) : Except Str (SettingsObject ν) :=
  mergeFields current patch none

def resetPath (defaults current : SettingsObject ν) (path : Option Str) :
    Except Str (SettingsObject ν) :=
  match path with
  | none => .ok defaults
  | some path =>
    if (trim path).isEmpty then .ok defaults
    else do
      assertServerPath path
      let value ← demand (readPath defaults path) (js "setting path has no default")
      setPath current path value

def comparable (p q : List Str) : Bool := p.isPrefixOf q || q.isPrefixOf p

def covers : Json ν → List Str → Bool
  | _, [] => true
  | .obj fields, key :: rest => fields.any fun e => e.1 == key && covers e.2 rest
  | _, _ :: _ => true

theorem setParts_elsewhere {fields out : SettingsObject ν} {p : List Str} {value : Json ν}
    (h : setParts fields p value = .ok out) {q : List Str} (hq : comparable p q = false) :
    readParts (.obj out) q = readParts (.obj fields) q := by
  induction p generalizing fields out q with
  | nil => cases h
  | cons key rest ih =>
    rcases q with _ | ⟨k, q⟩
    · simp [comparable] at hq
    have hread : ∀ v, (key = k → readParts v q = readParts (.obj fields) (k :: q)) →
        readParts (.obj (Entries.set fields key v)) (k :: q) = readParts (.obj fields) (k :: q) := by
      intro v hv
      by_cases hk : k = key
      · rw [readParts, Entries.get_set, if_pos hk, Option.bind_some]
        exact hv hk.symm
      · rw [readParts, Entries.get_set, if_neg hk, readParts]
    rcases rest with _ | ⟨next, rest⟩
    · cases h
      refine hread value fun hk => ?_
      simp [comparable, hk] at hq
    · simp only [setParts] at h
      split at h
      · next child hchild =>
        obtain ⟨inner, hinner, hout⟩ := bind_ok.mp h
        cases hout
        refine hread (.obj inner) fun hk => ?_
        have hrest : comparable (next :: rest) q = false := by simpa [comparable, hk] using hq
        rw [ih hinner hrest, readParts, ← hk, hchild, Option.bind_some]
      · cases h

theorem readParts_uncovered {value : Json ν} {q : List Str} (h : covers value q = false) :
    readParts value q = none := by
  induction q generalizing value with
  | nil => simp [covers] at h
  | cons key q ih =>
    cases value with
    | obj fields =>
      rw [readParts]
      rcases hget : Entries.get fields key with _ | child
      · rfl
      · have hmem := Entries.mem_of_get hget
        simp only [covers, List.any_eq_false, Bool.and_eq_true, beq_iff_eq, not_and] at h
        exact ih (by simpa using h (key, child) hmem rfl)
    | _ => rfl

theorem mergeFields_elsewhere (q : List Str) {current patch out : SettingsObject ν} {key : Str}
    {path : Option Str} (h : mergeFields current patch path = .ok out)
    (hq : covers (.obj patch) (key :: q) = false) :
    readParts (.obj out) (key :: q) = readParts (.obj current) (key :: q) := by
  induction q generalizing current patch out key path with
  | nil =>
    induction patch generalizing current with
    | nil =>
      cases h
      rfl
    | cons e patch ih =>
      obtain ⟨k, child⟩ := e
      simp only [covers, List.any_cons, Bool.or_eq_false_iff, Bool.and_true] at hq
      obtain ⟨_, -, h⟩ := bind_ok.mp h
      obtain ⟨merged, -, h⟩ := bind_ok.mp h
      have hne : key ≠ k := fun heq => by simp [heq] at hq
      rw [ih h (by simpa [covers] using hq.2), readParts, readParts, Entries.get_set, if_neg hne]
  | cons next q ihq =>
    induction patch generalizing current with
    | nil =>
      cases h
      rfl
    | cons e patch ih =>
      obtain ⟨k, child⟩ := e
      simp only [covers, List.any_cons, Bool.or_eq_false_iff, Bool.and_eq_false_iff] at hq
      obtain ⟨_, -, h⟩ := bind_ok.mp h
      obtain ⟨merged, hmerged, h⟩ := bind_ok.mp h
      rw [ih h (by simpa only [covers] using hq.2), readParts, readParts, Entries.get_set]
      split_ifs with hk
      · subst hk
        have huncovered : covers child (next :: q) = false := by simpa using hq.1
        rw [Option.bind_some]
        cases child with
        | obj fields =>
          rcases hcurrent : Entries.get current key with _ | value
          · rw [hcurrent] at hmerged
            cases hmerged
            exact readParts_uncovered huncovered
          · rw [hcurrent] at hmerged
            cases value with
            | obj inner =>
              obtain ⟨fields', hfields, hout⟩ := bind_ok.mp hmerged
              cases hout
              exact ihq hfields huncovered
            | _ =>
              cases hmerged
              exact readParts_uncovered huncovered
        | _ => simp [covers] at huncovered
      · rfl

end Terminay.Settings
