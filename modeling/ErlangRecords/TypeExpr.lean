/-
Type expressions of the generated code.

`render` writes an expression as it stands in a record or type definition, `qualify` puts a module before every user
type that has none yet, at any depth, and `memberCount` counts the members of a union on the outside.
-/
import ErlangRecords.Atom

namespace ErlangRecords

inductive TypeExpr where
  /-- the integers between two bounds, both included -/
  | range (min max : Int)
  | boolean
  | float
  | iodata
  /-- the atom that stands for an absent value -/
  | undefined
  | atom (name : String)
  /-- a user type, of the module given or of the module the expression stands in -/
  | named (qualifier : Option String) (name : String)
  | record (name : String)
  | list (value : TypeExpr)
  /-- a pair of a tag atom and a value -/
  | tagged (tag : String) (value : TypeExpr)
  | union (members : List TypeExpr)
deriving Repr, Inhabited

namespace TypeExpr

mutual

/-- equality, member by member -/
def same : TypeExpr → TypeExpr → Bool
  | .range a b, .range c d => a == c && b == d
  | .boolean, .boolean => true
  | .float, .float => true
  | .iodata, .iodata => true
  | .undefined, .undefined => true
  | .atom a, .atom b => a == b
  | .named p a, .named q b => p == q && a == b
  | .record a, .record b => a == b
  | .list s, .list t => same s t
  | .tagged x s, .tagged y t => x == y && same s t
  | .union ss, .union ts => sameMembers ss ts
  | _, _ => false

def sameMembers : List TypeExpr → List TypeExpr → Bool
  | [], [] => true
  | s :: ss, t :: ts => same s t && sameMembers ss ts
  | _, _ => false

end

mutual

theorem same_iff (s t : TypeExpr) : same s t = true ↔ s = t := by
  match s with
  | .range _ _ | .boolean | .float | .iodata | .undefined | .atom _ | .named _ _ | .record _ =>
    cases t <;> simp [same]
  | .list v => cases t <;> simp [same, same_iff v]
  | .tagged _ v => cases t <;> simp [same, same_iff v]
  | .union vs => cases t <;> simp [same, sameMembers_iff vs]

theorem sameMembers_iff (ss ts : List TypeExpr) : sameMembers ss ts = true ↔ ss = ts := by
  match ss with
  | [] => cases ts <;> simp [sameMembers]
  | s :: ss => cases ts <;> simp [sameMembers, same_iff s, sameMembers_iff ss]

end

instance : DecidableEq TypeExpr := fun s t => decidable_of_iff _ (same_iff s t)

/-- integers of two's complement with the given number of bits -/
def signed (bits : Nat) : TypeExpr :=
  let half : Int := (1 <<< (bits - 1) : Nat)
  .range (-half) (half - 1)

/-- non-negative integers with the given number of bits -/
def unsigned (bits : Nat) : TypeExpr :=
  let count : Int := (1 <<< bits : Nat)
  .range 0 (count - 1)

/-- a value or its absence -/
def optional (value : TypeExpr) : TypeExpr := .union [.undefined, value]

/-- the number of members of a union, and one for all else -/
def memberCount : TypeExpr → Nat
  | .union members => members.length
  | _ => 1

mutual

/-- puts `home` before every user type that has no module -/
def qualify (home : String) : TypeExpr → TypeExpr
  | .named none name => .named (some home) name
  | .list value => .list (qualify home value)
  | .tagged tag value => .tagged tag (qualify home value)
  | .union members => .union (qualifyMembers home members)
  | t => t

def qualifyMembers (home : String) : List TypeExpr → List TypeExpr
  | [] => []
  | t :: ts => qualify home t :: qualifyMembers home ts

end

mutual

/-- the source text of an expression -/
def render : TypeExpr → String
  | .range min max => toString min ++ ".." ++ toString max
  | .boolean => "boolean()"
  | .float => "float()"
  | .iodata => "iodata()"
  | .undefined => "undefined"
  | .atom name => Atom.quote name
  | .named (some home) name => Atom.quote home ++ ":" ++ Atom.quote name ++ "()"
  | .named none name => Atom.quote name ++ "()"
  | .record name => "#" ++ Atom.quote name ++ "\x7b\x7d"
  | .list value => "list(" ++ render value ++ ")"
  | .tagged tag value => "\x7b" ++ Atom.quote tag ++ ", " ++ render value ++ "\x7d"
  | .union members => " | ".intercalate (renderMembers members)

def renderMembers : List TypeExpr → List String
  | [] => []
  | t :: ts => render t :: renderMembers ts

end

@[simp] theorem qualifyMembers_eq_map (home : String) (ts : List TypeExpr) :
    qualifyMembers home ts = ts.map (qualify home) := by
  induction ts with
  | nil => rfl
  | cons t ts ih => simp [qualifyMembers, ih]

@[simp] theorem renderMembers_eq_map (ts : List TypeExpr) : renderMembers ts = ts.map render := by
  induction ts with
  | nil => rfl
  | cons t ts ih => simp [renderMembers, ih]

end TypeExpr

end ErlangRecords
