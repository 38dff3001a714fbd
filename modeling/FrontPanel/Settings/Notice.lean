import FrontPanel.Settings.Audit

/-!
# The notice that stops a build

A configuration that is missing, unreadable or faulty stops the build with a notice in a double-ruled
frame.
-/

namespace FrontPanel.Settings

set_option autoImplicit false

inductive Source where
  | missing
  | unreadable (reason : String)
  | document (d : Document)

namespace Notice

/-- A text filled up with spaces to `width` characters; a longer text is not cut. -/
def padded (width : Nat) (text : String) : String :=
  text ++ String.ofList (List.replicate (width - text.length) ' ')

def innerWidth : Nat := 66

def rule (left right : String) : String :=
  left ++ String.ofList (List.replicate innerWidth '═') ++ right

def plain (text : String) : String := "║" ++ padded innerWidth ("  " ++ text) ++ "║"

def framed (lines : List String) : String :=
  "\n" ++ String.join ((rule "╔" "╗" :: lines ++ [rule "╚" "╝"]).map (· ++ "\n"))

def missing : String :=
  framed
    [plain "ERROR: panel.toml not found!",
      plain "",
      plain "The firmware requires a panel.toml configuration file.",
      plain "Please create one in the kestrel-firmware directory."]

def unreadable (reason : String) : String :=
  framed
    [plain "ERROR: Failed to read panel.toml",
      plain "",
      "║  Error: " ++ padded 56 reason ++ " ║"]

def faulty (findings : List Audit.Finding) : String :=
  framed
    (plain "ERROR: Invalid panel configuration" :: rule "╠" "╣" ::
      findings.map fun finding => "║  • " ++ padded 62 finding.message ++ " ║")

end Notice

/-- The notice that stops the build, or nothing if the configuration is accepted. -/
def Source.notice : Source → Option String
  | .missing => some Notice.missing
  | .unreadable reason => some (Notice.unreadable reason)
  | .document d =>
    match Audit.findings d with
    | [] => none
    | found => some (Notice.faulty found)

end FrontPanel.Settings
