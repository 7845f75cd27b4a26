import Terminay.Workspace.State

/-!
# Checks on the fields of a command

A field of a command is read as the client sent it, `none` being an absent field.
Every check refuses a value of the wrong type with the text of the source; where
the source would let the engine throw, the refusal is `engineTypeError`.
-/

namespace Terminay.Workspace
open Script Outcome

variable {ν : Type}

/-- The engine's own message for a value of the wrong type. -/
def engineTypeError : Str := js "TypeError"

/-- Names every object inherits, which a dictionary lookup by `[]` also finds. -/
def inheritedNames : List Str :=
  [js "constructor", js "hasOwnProperty", js "isPrototypeOf", js "propertyIsEnumerable",
    js "toLocaleString", js "toString", js "valueOf", js "__proto__", js "__defineGetter__",
    js "__defineSetter__", js "__lookupGetter__", js "__lookupSetter__"]

def occupied {α : Type} (t : Table.Of ProtocolId α) (id : ProtocolId) : Bool :=
  t[id]?.isSome || inheritedNames.contains id

def isIdUnit (u : UInt16) : Bool :=
  isLetter u || isDigit u || u == unit '.' || u == unit '_' || u == unit ':' || u == unit '-'

/-- `ID_PATTERN`. -/
def idPattern : Str → Bool
  | [] => false
  | u :: rest => (isLetter u || isDigit u) && rest.length ≤ 127 && rest.all isIdUnit

def assertId (value : Option (Json ν)) (name : String) : Checked ProtocolId :=
  match value with
  | some (.str s) => if idPattern s then .ok s else .error (js "invalid " ++ js name)
  | _ => .error (js "invalid " ++ js name)

def assertStoredId (id : ProtocolId) (name : String) : Checked Unit :=
  refuseIf (idPattern id = false) (js "invalid " ++ js name)

def boundedNameText (s : Str) : Checked Str :=
  if (trim s).length = 0 ∨ 256 < s.length then .error (js "name is invalid") else .ok (trim s)

def boundedName (value : Option (Json ν)) : Checked Str :=
  match value with
  | some (.str s) => boundedNameText s
  | _ => .error (js "name is invalid")

def boundedPathText (s : Str) : Checked Str :=
  if s.length = 0 ∨ 4096 < s.length ∨ hasNul s then .error (js "root/path is invalid") else .ok s

def boundedPath (value : Option (Json ν)) : Checked Str :=
  match value with
  | some (.str s) => boundedPathText s
  | _ => .error (js "root/path is invalid")

def boundedPresentation (value : Json ν) (name : String) : Checked Str :=
  match value with
  | .str s =>
    if 128 < s.length ∨ hasNul s then .error (js name ++ js " is invalid") else .ok s
  | _ => .error (js name ++ js " is invalid")

def optionalPresentation (value : Option (Json ν)) (name : String) : Checked (Option Str) :=
  match value with
  | none => .ok none
  | some j => do .ok (some (← boundedPresentation j name))

def noRoot (value : Option (Json ν)) : Checked Str :=
  match value with
  | none | some (.str []) => .ok []
  | _ => .error (js "a project with no root folder has no root")

def maxPanelNoteChars : ℕ := 1200

def assertPanelNote (value : Json ν) : Checked Unit :=
  match value with
  | .str s => refuseIf (maxPanelNoteChars < s.length ∨ hasNul s) (js "terminal panel note is invalid")
  | _ => .error (js "terminal panel note is invalid")

section Engine
variable [Engine ν]

def assertRevision (value : Option (Json ν)) (name : String) : Checked (Json ν) :=
  match value with
  | some j => if j.uint?.isSome then .ok j else .error (js name ++ js " is invalid")
  | none => .error (js name ++ js " is invalid")

def withField (fields : Fields ν) (key : String) (value : Option (Json ν)) : Fields ν :=
  match value with
  | some j => fields.insert (js key) j
  | none => fields

def validateLaunchMetadata (value : Fields ν) : Checked (Fields ν) := do
  let profileId ← assertId (value.at "profileId") "profileId"
  let profileRevision ← assertRevision (value.at "profileRevision") "profileRevision"
  let workspaceRevision ← assertRevision (value.at "workspaceRevision") "workspaceRevision"
  let settingsRevision ← assertRevision (value.at "settingsRevision") "settingsRevision"
  let profileName ← boundedName (value.at "profileName")
  let targetSummary ← boundedName (value.at "targetSummary")
  let icon ← optionalPresentation (value.at "icon") "launch icon"
  let color ← optionalPresentation (value.at "color") "launch color"
  let launch : Fields ν := Table.ofEntries
    [(js "profileId", .str profileId), (js "profileRevision", profileRevision),
      (js "profileName", .str profileName), (js "targetSummary", .str targetSummary),
      (js "workspaceRevision", workspaceRevision), (js "settingsRevision", settingsRevision)]
  .ok (withField (withField launch "icon" (icon.map .str)) "color" (color.map .str))

def launchField (value : Option (Json ν)) : Checked (Option (Fields ν)) :=
  match value with
  | none => .ok none
  | some .null => .error engineTypeError
  | some j => do .ok (some (← validateLaunchMetadata (j.object?.getD ∅)))

end Engine

def validateWorktreeLink (value : Json ν) : Checked WorkspaceFolderWorktreeLink :=
  match value.object? with
  | none => .error (js "folder worktree link is invalid")
  | some link =>
    match link.at "repositoryId" with
    | some (.str repositoryId) =>
      if repositoryId.length = 0 ∨ 256 < repositoryId.length then
        .error (js "folder worktree link is invalid")
      else do
        let path ← boundedPath (link.at "path")
        .ok ⟨repositoryId, path⟩
    | _ => .error (js "folder worktree link is invalid")

def validateStoredLink (link : WorkspaceFolderWorktreeLink) : Checked Unit := do
  refuseIf (link.repositoryId.length = 0 ∨ 256 < link.repositoryId.length)
    (js "folder worktree link is invalid")
  let _ ← boundedPathText link.path

def requireView (st : WorkspaceState ν) (id : Option (Json ν)) : Checked WorkspaceView := do
  demand st.views[← assertId id "viewId"]? (js "view not found")

def requireProject (st : WorkspaceState ν) (id : Option (Json ν)) : Checked (WorkspaceProject ν) := do
  demand st.projects[← assertId id "projectId"]? (js "project not found")

def requireFolder (st : WorkspaceState ν) (id : Option (Json ν)) : Checked (WorkspaceFolder ν) := do
  demand st.folders[← assertId id "folderId"]? (js "folder not found")

def requirePanel (st : WorkspaceState ν) (id : Option (Json ν)) : Checked (WorkspacePanel ν) := do
  demand st.panels[← assertId id "panelId"]? (js "panel not found")

theorem assertId_ok {value : Option (Json ν)} {name : String} {id : ProtocolId} :
    assertId value name = .ok id ↔ value = some (.str id) ∧ idPattern id = true := by
  unfold assertId
  split
  · split_ifs with h
    · simp only [Except.ok.injEq, Option.some.injEq, Json.str.injEq]
      exact ⟨fun he => ⟨he, he ▸ h⟩, fun he => he.1⟩
    · simp only [Option.some.injEq, Json.str.injEq, false_iff]
      rintro ⟨rfl, hp⟩
      exact h hp
  · rename_i hne
    simp only [reduceCtorEq, false_iff]
    rintro ⟨rfl, -⟩
    exact hne id rfl

theorem assertStoredId_ok {id : ProtocolId} {name : String} {u : Unit} :
    assertStoredId id name = .ok u ↔ idPattern id = true := by
  simp [assertStoredId]

theorem requireView_ok {st : WorkspaceState ν} {id : Option (Json ν)} {v : WorkspaceView} :
    requireView st id = .ok v ↔
      ∃ k, id = some (.str k) ∧ idPattern k = true ∧ st.views[k]? = some v := by
  simp only [requireView, bind_ok, assertId_ok, demand_ok, and_assoc]

theorem requireProject_ok {st : WorkspaceState ν} {id : Option (Json ν)} {p : WorkspaceProject ν} :
    requireProject st id = .ok p ↔
      ∃ k, id = some (.str k) ∧ idPattern k = true ∧ st.projects[k]? = some p := by
  simp only [requireProject, bind_ok, assertId_ok, demand_ok, and_assoc]

theorem requireFolder_ok {st : WorkspaceState ν} {id : Option (Json ν)} {f : WorkspaceFolder ν} :
    requireFolder st id = .ok f ↔
      ∃ k, id = some (.str k) ∧ idPattern k = true ∧ st.folders[k]? = some f := by
  simp only [requireFolder, bind_ok, assertId_ok, demand_ok, and_assoc]

theorem requirePanel_ok {st : WorkspaceState ν} {id : Option (Json ν)} {p : WorkspacePanel ν} :
    requirePanel st id = .ok p ↔
      ∃ k, id = some (.str k) ∧ idPattern k = true ∧ st.panels[k]? = some p := by
  simp only [requirePanel, bind_ok, assertId_ok, demand_ok, and_assoc]

end Terminay.Workspace
