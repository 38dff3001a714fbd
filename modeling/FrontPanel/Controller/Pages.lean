import FrontPanel.Page.Kinds
import FrontPanel.Page.Navigator

/-!
# The pages of the panel

A main menu, from which a motion menu, a menu of the flow sensor and the about page are reached.
-/

namespace FrontPanel.Pages

set_option autoImplicit false

def main : Nat := 0

def motion : Nat := 1

def flow : Nat := 2

def about : Nat := 3

def mainMenu : MenuPage where
  title := "Kestrel"
  items := [
    ⟨"Motion", .open motion⟩,
    ⟨"Flow sensor", .open flow⟩,
    ⟨"About", .open about⟩,
    ⟨"Emergency stop", .command "M112"⟩,
    ⟨"Clear halt", .command "M999"⟩]

def motionMenu : MenuPage where
  title := "Motion"
  items := [
    ⟨"Back", .back⟩,
    ⟨"Home all", .command "G28"⟩,
    ⟨"Park head", .command "G91\nG0 Z10\nG90\nG0 X0 Y0"⟩,
    ⟨"Disable motors", .command "M84"⟩,
    ⟨"Report position", .command "M114"⟩]

def flowMenu : MenuPage where
  title := "Flow sensor"
  items := [
    ⟨"Back", .back⟩,
    ⟨"Status", .command "M407"⟩,
    ⟨"Measured extrusion", .command "M114"⟩,
    ⟨"Zero", .command "G92 E0"⟩]

def aboutPage (identity : Identity) : AboutPage where
  identity := identity
  firmware := "kestrel-firmware"
  version := "0.1.0"

def all (identity : Identity) : Navigator AnyPage where
  pages := [.menu mainMenu, .menu motionMenu, .menu flowMenu, .about (aboutPage identity)]

end FrontPanel.Pages
