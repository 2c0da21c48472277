import Wiring.Definition
import Wiring.Text.Case

namespace Wiring

/-! Names for discovered definitions. Scanned components default to their short class name with
the first letter lowered, unless the first two letters are both capitals (`URLParser` stays);
imported configurations default to the qualified class name. -/

/-- Lowers the first character (fully: it may become several), unless it and the second are
both uppercase. -/
def decapitalize (s : String) : String :=
  match s.toList with
  | [] => ""
  | c :: rest =>
    match rest with
    | d :: _ =>
      if Text.isUppercase d && Text.isUppercase c then s
      else String.ofList (Text.lowercase c ++ rest)
    | [] => String.ofList (Text.lowercase c)

/-- A rule that names a definition from its class. -/
inductive NameGenerator where
  | short
  | qualified
  | prefixed (lead : String)
  deriving DecidableEq, Repr, Inhabited

namespace NameGenerator

def shortOf (m : ClassMetadata) : String :=
  match m.componentName with
  | some n => if n.isEmpty then decapitalize m.shortName else n
  | none => decapitalize m.shortName

def generate (g : NameGenerator) (d : Definition) : String :=
  match g with
  | short => shortOf d.cls.metadata
  | qualified => d.cls.userName
  | prefixed lead => lead ++ d.cls.userName

end NameGenerator

example : decapitalize "UserService" = "userService" := by decide
example : decapitalize "URLParser" = "URLParser" := by decide
example : decapitalize "" = "" := by decide

end Wiring
