import Terminay.Workspace.Bounds

/-!
# Terminal titles and default names

A terminal's stored title is the name a person gave it, else its default name.
The server assigns both; a client's patch of the title is a name, and an empty
one takes that name away.
-/

namespace Terminay.Workspace
open Script

variable {ν : Type}

structure TerminalTitleSources (ν : Type) where
  defaultTitle : Json ν
  namedTitle : Option (Json ν)

def shownTitle (namedTitle defaultTitle : Option (Json ν)) : Option (Json ν) :=
  match namedTitle with
  | none | some .null => defaultTitle
  | some j => some j

/-- `DEFAULT_TERMINAL_TITLE`. -/
def isDefaultTerminalTitle (title : Str) : Bool :=
  let rest := title.drop 9
  title.take 9 == js "Terminal " && !rest.isEmpty && rest.all isDigit

def nextDefaultTerminalTitle (st : WorkspaceState ν) (projectId : ProtocolId)
    (exceptPanelId : Option ProtocolId) : Str :=
  let others := st.panels.toList.countP fun e =>
    e.2.projectId == projectId && e.2.isTerminal && some e.2.id != exceptPanelId
  js "Terminal " ++ natText (others + 1)

def trimmedTitle (title : Option (Json ν)) : Checked (Option Str) :=
  match title with
  | none | some .null => .ok none
  | some (.str s) => .ok (some (trim s))
  | some _ => .error engineTypeError

def terminalTitleSources (st : WorkspaceState ν) (panel : WorkspacePanel ν) :
    Checked (TerminalTitleSources ν) :=
  match panel.at "defaultTitle" with
  | some defaultTitle => .ok ⟨defaultTitle, panel.at "namedTitle"⟩
  | none => do
    let fallback := nextDefaultTerminalTitle st panel.projectId (some panel.id)
    match ← trimmedTitle (panel.at "title") with
    | none => .ok ⟨.str fallback, none⟩
    | some title =>
      if isDefaultTerminalTitle title then .ok ⟨.str title, none⟩
      else if title.length = 0 then .ok ⟨.str fallback, none⟩
      else .ok ⟨.str fallback, some (.str (trim (title.take 256)))⟩

def defaultTitleAtCreation (st : WorkspaceState ν) (projectId : ProtocolId)
    (defaultName : Option (Json ν)) : Checked Str :=
  match defaultName with
  | none => .ok (nextDefaultTerminalTitle st projectId none)
  | some name => boundedName (some name)

def terminalTitlesAtCreation (st : WorkspaceState ν) (projectId : ProtocolId)
    (title defaultName : Option (Json ν)) : Checked (TerminalTitleSources ν) := do
  let defaultTitle ← defaultTitleAtCreation st projectId defaultName
  match title with
  | none => .ok ⟨.str defaultTitle, none⟩
  | some title =>
    let name ← boundedName (some title)
    if isDefaultTerminalTitle name ∧ defaultName = none then .ok ⟨.str name, none⟩
    else .ok ⟨.str defaultTitle, some (.str name)⟩

def withTitleSources [Engine ν] (fields : Fields ν) (sources : TerminalTitleSources ν) :
    Fields ν :=
  let rest := Table.eraseAll fields
    [js "title", js "defaultTitle", js "namedTitle", js "programTitle"]
  let shown := (shownTitle sources.namedTitle (some sources.defaultTitle)).getD sources.defaultTitle
  withField ((rest.insert (js "title") shown).insert (js "defaultTitle") sources.defaultTitle)
    "namedTitle" sources.namedTitle

/-- The number in a name of the form `Project` or `Project N`. -/
def defaultProjectNumber? (name : Str) : Option ℕ :=
  if name = js "Project" then some 1
  else
    let rest := name.drop 8
    if name.take 8 = js "Project " ∧ rest ≠ [] ∧ rest.all isDigit then some (digitsValue rest)
    else none

/-- The least number from `candidate` on that is not taken, within `fuel` tries. -/
def firstFree (taken : ℕ → Bool) : ℕ → ℕ → ℕ
  | 0, candidate => candidate
  | fuel + 1, candidate => if taken candidate then firstFree taken fuel (candidate + 1) else candidate

theorem firstFree_taken {taken : ℕ → Bool} {fuel candidate : ℕ}
    (h : taken (firstFree taken fuel candidate) = true) : ∀ i < fuel, taken (candidate + i) = true := by
  induction fuel generalizing candidate with
  | zero => intro i hi; omega
  | succ fuel ih =>
    by_cases hc : taken candidate = true
    · intro i hi
      rw [firstFree, if_pos hc] at h
      rcases i with _ | i
      · exact hc
      · have hi' := ih h i (by omega)
        rwa [Nat.add_assoc, Nat.add_comm 1 i] at hi'
    · rw [firstFree, if_neg hc] at h
      exact absurd h hc

/-- `taken` holds at most one number per project, so one try more than the
number of projects reaches a free one. -/
def nextDefaultProjectName (st : WorkspaceState ν) : Str :=
  let taken := st.projects.toList.filterMap fun e => defaultProjectNumber? e.2.name
  js "Project " ++ natText (firstFree taken.contains (taken.length + 1) 1)

/-- Last segment of a canonical path, accepting either separator. -/
def pathBasename (path : Str) : Str :=
  let segments := (path.splitOnP fun u => u == unit '/' || u == unit '\\').filter (· ≠ [])
  let last := segments.getLast?.getD []
  match last with
  | [drive, colon] => if isLetter drive ∧ colon = unit ':' then [] else (trim last).take 256
  | _ => (trim last).take 256

end Terminay.Workspace
