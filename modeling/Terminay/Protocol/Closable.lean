import Terminay.Lib.Runs
import Terminay.Protocol.Payload
import Terminay.Workspace.PanelClose

/-!
# Clients that keep terminals closable

A run of client commands on a store. As long as no command gives a terminal panel
a session that another one of its project names, every panel can be closed.
-/

namespace Terminay.Protocol
open Script Workspace

variable {ν : Type} [Engine ν]

structure ClientCall (ν : Type) where
  commandId : ProtocolId
  expectedRevision : Option ν
  payload : Json ν
  host : RootHost ν
  now : ν
  written : Bool

namespace ClientCall

def command (call : ClientCall ν) : Answered (Command ν) := do
  let requested ← commandPayload call.payload
  let rooted ← withDefaultProjectRoot call.host requested
  withPreparedRoot call.host rooted

def run (s : WorkspaceStore ν) (call : ClientCall ν) : WorkspaceStore ν :=
  match call.command with
  | .error _ => s
  | .ok command =>
    (Workspace.apply s ⟨call.commandId, call.expectedRevision, command⟩ call.now call.written).1

/-- The command gives no terminal panel the session of another. -/
def KeepsSessionsApart (s : WorkspaceStore ν) (call : ClientCall ν) : Prop :=
  ∀ command, call.command = .ok command → GivesOwnSession s.current command

end ClientCall

structure Apart (st : WorkspaceState ν) : Prop extends Sound st where
  distinct : SessionsDistinct st

theorem Apart.run {s : WorkspaceStore ν} (h : Apart s.current) {call : ClientCall ν}
    (hcall : call.KeepsSessionsApart s) : Apart (call.run s).current := by
  rcases hcommand : call.command with error | command
  · simpa only [ClientCall.run, hcommand] using h
  · simp only [ClientCall.run, hcommand]
    rcases apply_current s ⟨call.commandId, call.expectedRevision, command⟩ call.now call.written with
      hsame | ⟨r, hd, hnew⟩
    · exact hsame ▸ h
    · have hr := draft_sound h.toSound hd
      have hdistinct := edit_distinct h.consistent h.distinct (hcall command hcommand)
        (draft_ok.mp hd).1 hr.consistent
      rw [hnew]
      exact ⟨⟨hr.consistent.numbered _, hr.settled.numbered _⟩, hdistinct⟩

theorem initialWorkspace_apart {serverId : ProtocolId} (h : idPattern serverId = true) :
    Apart (initialWorkspace serverId : WorkspaceState ν) := by
  refine ⟨initialWorkspace_sound h, fun i j p q hp => ?_⟩
  simp [initialWorkspace] at hp

structure Removed (p : ProtocolId) (panel : WorkspacePanel ν) (st st' : WorkspaceState ν) : Prop where
  panels : st'.panels = st.panels.erase p
  sessions : st'.terminalSessions =
    if panel.isTerminal then st.terminalSessions.erase panel.sessionKey else st.terminalSessions
  held : panel.isTerminal = true → st.terminalSessions[panel.sessionKey]?.isSome

/-- Every panel is closed by the command that names it, unless the store has
answered that command id or the client expects another revision. -/
def Closable (s : WorkspaceStore ν) : Prop :=
  ∀ (p : ProtocolId) (panel : WorkspacePanel ν), s.current.panels[p]? = some panel →
    ∀ (envelope : WorkspaceCommandEnvelope ν) (now : ν), envelope.command.kind = some .panelClose →
      envelope.command.fields.at "panelId" = some (.str p) →
      idPattern envelope.commandId = true → s.outcomes.get envelope.commandId = none →
      isStale s envelope = false →
      ∃ revision cursor event st',
        (Workspace.apply s envelope now true).2 = .ok revision cursor event st' ∧
          Removed p panel s.current st'

theorem Apart.closable {s : WorkspaceStore ν} (h : Apart s.current)
    (hrevision : s.current.revision ≤ maxSafeInteger) : Closable s := by
  intro p panel hpanel envelope now hkind hnamed hid hnew hfresh
  obtain ⟨r, hdraft, hclosed⟩ :=
    close_accepted h.toSound h.distinct hrevision hpanel hkind hnamed now
  have happly : Workspace.apply s envelope now true = committed s envelope r := by
    simp [Workspace.apply, hid, hnew, hfresh, hdraft]
  refine ⟨_, _, _, numbered (s.current.revision + 1) r.1, congrArg (·.2) happly, hclosed.panels, hclosed.sessions, fun hterm => ?_⟩
  obtain ⟨session, hsession, -⟩ := (h.consistent.panels p panel hpanel).session hterm
  simp [hsession]

instance (s : WorkspaceStore ν) (call : ClientCall ν) : Decidable (call.KeepsSessionsApart s) :=
  match h : call.command with
  | .error _ => .isTrue fun command hc => by simp [h] at hc
  | .ok command => decidable_of_iff (GivesOwnSession s.current command)
      ⟨fun hg c hc => by cases h.symm.trans hc; exact hg, fun hk => hk command h⟩

def payloadOf (type : String) (fields : List (String × Json ν)) : Json ν :=
  .obj [(js "command", .obj ((js "type", .str (js type)) ::
    fields.map fun e => (js e.1, e.2)))]

def clientCall (commandId type : String) (fields : List (String × Json ν)) (now : ν) :
    ClientCall ν :=
  { commandId := js commandId, expectedRevision := none, payload := payloadOf type fields,
    host := ⟨false, none, none⟩, now := now, written := true }

def twoTerminals : List (ClientCall ℤ) :=
  [clientCall "c1" "project.create"
      [("projectId", .str (js "p")), ("viewId", .str (js "srv:view:default")),
        ("root", .str (js "/home"))] 0,
    clientCall "c2" "terminal.createPanel"
      [("sessionId", .str (js "s1")), ("panelId", .str (js "a")), ("projectId", .str (js "p"))] 0,
    clientCall "c3" "terminal.createPanel"
      [("sessionId", .str (js "s2")), ("panelId", .str (js "b")), ("projectId", .str (js "p"))] 0]

def panelPatch (panelId : String) (fields : List (String × Json ℤ)) : ClientCall ℤ :=
  clientCall "c4" "panel.update"
    [("panelId", .str (js panelId)), ("patch", .obj (fields.map fun e => (js e.1, e.2)))] 0

def afterCalls (calls : List (ClientCall ℤ)) : WorkspaceStore ℤ :=
  Runs.after ClientCall.run (newStore (initialWorkspace (js "srv")) 1024 8388608) calls

def closeOf (panelId : String) : WorkspaceCommandEnvelope ℤ :=
  ⟨js "c5", none, ⟨js "panel.close", Table.ofEntries [(js "panelId", .str (js panelId))]⟩⟩

def refusedWith (result : WorkspaceApplyResult ν) : Option Str :=
  match result with
  | .refused conflict => some conflict.message
  | _ => none

end Terminay.Protocol
