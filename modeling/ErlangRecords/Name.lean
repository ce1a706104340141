/-
Names of declarations.

A declaration is named three ways: by its local name, by its dotted full name inside the package, and by its absolute
name, a dot followed by package and full name, which is the key of every reference.
-/

namespace ErlangRecords.Name

/-- dotted name of a chain of local names, innermost first; the result reads outermost first -/
def dotted (innermostFirst : List String) : String := ".".intercalate innermostFirst.reverse

/-- absolute name of `fullName` in `package`; without a package there is a single leading dot -/
def absolute (package fullName : String) : String :=
  if package = "" then "." ++ fullName else "." ++ package ++ "." ++ fullName

theorem dotted_singleton (name : String) : dotted [name] = name := by
  rw [dotted, List.reverse_singleton, String.intercalate_singleton]

/-- the name of a nested declaration continues that of the one around it -/
theorem dotted_cons (name : String) {around : List String} (h : around ≠ []) :
    dotted (name :: around) = dotted around ++ "." ++ name := by
  rw [dotted, List.reverse_cons, String.intercalate_append_of_ne_nil (by simpa using h) (by simp),
    String.intercalate_singleton, dotted]

theorem absolute_dotted_cons (package name : String) {around : List String} (h : around ≠ []) :
    absolute package (dotted (name :: around)) = absolute package (dotted around) ++ "." ++ name := by
  unfold absolute
  rw [dotted_cons name h]
  split <;> simp only [String.append_assoc]

end ErlangRecords.Name
