import Terminay.Settings.Repository

/-!
# The default server settings
-/

namespace Terminay.Settings
open Script

variable {ν : Type} [Engine ν]

private def text (value : String) : Json ν := .str (js value)

private def object (fields : List (String × Json ν)) : Json ν :=
  .obj (fields.map fun field => (js field.1, field.2))

def DEFAULT_SERVER_SETTINGS : SettingsObject ν :=
  List.map (fun field => (js field.1, field.2))
  [("agentIntegration", object [("enabled", .bool true), ("harnesses", .obj [])]),
    ("aiTabMetadata", object [
      ("title", object [("provider", text "disabled"), ("claudeCodeModel", text ""),
        ("codexModel", text "")]),
      ("note", object [("provider", text "disabled"), ("claudeCodeModel", text ""),
        ("codexModel", text "")])]),
    ("activityIndicators", object [("amberDelaySeconds", natJson 0),
      ("greenDelaySeconds", natJson 1), ("showActiveTabs", .bool true),
      ("showFinishedTabs", .bool true), ("signalDetection", .bool true),
      ("progressStaleSeconds", natJson 15), ("tabSwitchSuppressionSeconds", natJson 1)]),
    ("autoCloseTerminalOnExitZero", .bool false),
    ("moveTerminalsIntoNewWorktreeFolders", .bool true),
    ("keepTerminalsAfterQuit", text "5m"),
    ("programSetTabTitles", .bool true),
    ("homeDashboard", object [("widgets", .arr [])]),
    ("shellIntegration", .bool true),
    ("convertEol", .bool true),
    ("dictation", object [("enabled", .bool true), ("provider", text "openai"),
      ("model", text "gpt-4o-transcribe"), ("language", text "en"), ("prompt", text ""),
      ("silenceStopSeconds", natJson 5), ("maxDurationSeconds", natJson 60)]),
    ("disableStdin", .bool false),
    ("fileViewer", object [("customFileExtensions", .arr []),
      ("diffLayout", text "side-by-side"),
      ("folderTaskIgnoredDirectories", text (".git\n.hg\n.svn\nnode_modules\n" ++
        "bower_components\ndist\nbuild\nout\n.next\n.nuxt\n.cache\ncoverage\ntarget\n" ++
        "vendor\n.venv\nvenv\n__pycache__")),
      ("refreshIntervalSeconds", natJson 5)]),
    ("gitPushAgent", object [("provider", text "disabled"), ("claudeCodeModel", text ""),
      ("codexModel", text ""), ("prompt", text "")]),
    ("pixel", object [("enabled", .bool false), ("provider", text "unset")]),
    ("terminayMcp", object [("enabled", .bool true),
      ("permissions", object [("terminalsRead", text "allow"), ("terminalsManage", text "allow"),
        ("automationsRead", text "allow"), ("automationsManage", text "ask"),
        ("projectsWindows", text "allow"), ("settingsRead", text "allow"),
        ("settingsChange", text "ask"), ("workflowTemplates", text "ask"),
        ("appWindows", text "allow"), ("notifications", text "allow"),
        ("connectedServerTools", text "allow"), ("windowMessages", text "allow")])]),
    ("ignoreBracketedPasteMode", .bool false),
    ("macros", object [("maxSteps", natJson 256), ("maxFields", natJson 128),
      ("maxOutputBytes", natJson 131072), ("maxDelayMs", natJson 300000),
      ("maxConcurrentRuns", natJson 4), ("disconnectPolicy", text "cancel")]),
    ("remoteAccess", object [("connectionMetrics", .bool false), ("exposeOnStartup", .bool false),
      ("webRtcHostedDomain", text "terminay.com"),
      ("webRtcIceServers", text "stun:stun.l.google.com:19302")]),
    ("recording", object [("captureInput", .bool false),
      ("directory", text "~/Documents/TerminaySessions"),
      ("openTimelineAfterSaving", .bool false), ("recordNewTerminals", .bool false),
      ("sensitiveInputPolicy", text "drop")]),
    ("rightClickSelectsWord", .bool false),
    ("scrollback", natJson 5000),
    ("scrollOnEraseInDisplay", .bool false),
    ("scrollOnUserInput", .bool true),
    ("scrollSensitivity", natJson 1),
    ("smoothScrollDuration", natJson 0),
    ("shell", object [("program", text ""), ("startupMode", text "auto"), ("extraArgs", text "")]),
    ("shellProfiles", object [("defaultProfileId", text "system"), ("cwdPolicy", text "current"),
      ("profiles", .arr []), ("order", .arr [])]),
    ("tabStopWidth", natJson 8),
    ("wordSeparator", text " ()[]\x7b\x7d',\"\x60")]

def createInitialServerSettings : ServerSettingsState ν :=
  ⟨0, natText 0, DEFAULT_SERVER_SETTINGS, []⟩

end Terminay.Settings
