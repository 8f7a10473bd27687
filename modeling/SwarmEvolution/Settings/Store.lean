import SwarmEvolution.Directory
import SwarmEvolution.Document.Toml.Reading
import SwarmEvolution.Document.Toml.Writing
import SwarmEvolution.Settings.Reading
import SwarmEvolution.Settings.Writing

/-!
Settings in use: read from a text or a file, changed, and saved. Whatever comes to be in use has
been validated.
-/
namespace SwarmEvolution.Settings

/-- The settings that a text states over the defaults. -/
def ofToml (text : String) : Except Failure Settings := do
  let some d := Document.Toml.read? .plain text | throw .toml
  let some s := amend? .toml {} d | throw .toml
  s.validate
  return s

def load (directory : Directory) (name : String) : Except Failure Settings := do
  let some text := directory.read? name
    | throw (.settings (if Directory.hasNul name then .nulInName name else .unreadable))
  ofToml text

/-- Saves settings as a file that states every entry but the absent ones. -/
def save (s : Settings) (directory : Directory) (name : String) : Except Failure Directory := do
  let some text := Document.Toml.render? s.toDocument | throw (.settings .countTooLargeToSave)
  let some directory := directory.write? name text | throw .file
  return directory

/-- A copy of the settings after an edit, if it is valid. -/
def revise (edit : Settings → Settings) (s : Settings) : Except Failure Settings := do
  let revised := edit s
  revised.validate
  return revised

/-- The settings with the entries that a document names. -/
def patch (s : Settings) (d : Document) : Except Failure Settings := do
  let some amended := amend? .strict s d | throw .document
  s.revise fun _ => amended

end SwarmEvolution.Settings
