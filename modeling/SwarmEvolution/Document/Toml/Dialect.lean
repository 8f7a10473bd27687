/-!
The two dialects of TOML that settings files are read in. They differ in what may be written, in how
far values can be nested, and in two cases of doubt.
-/
namespace SwarmEvolution.Document.Toml

structure Dialect where
  /-- The most parts of a key, and the most lists and inline tables around a value. -/
  depth : Nat
  /-- Whether inline tables can stand on several lines and end with a comma, times of day can leave
  out the seconds, and quoted text has escapes for the escape character and by two digits. -/
  relaxed : Bool
  /-- Whether a negative number beyond the range is an infinity; otherwise it is refused, as a
  positive one always is. -/
  sinks : Bool
  /-- Whether a key with points can end in a table that is only implied by a header. -/
  entersImplied : Bool

namespace Dialect

/-- What settings are saved in and loaded from. -/
def plain : Dialect := { depth := 79, relaxed := false, sinks := true, entersImplied := false }

/-- What a layer of settings is read from. -/
def extended : Dialect := { depth := 80, relaxed := true, sinks := false, entersImplied := true }

end Dialect
end SwarmEvolution.Document.Toml
