import DataAccess.Sql.Dialect
import DataAccess.Sql.Parameter

set_option autoImplicit false

/-! # Fragments of statements

A fragment is SQL text with slots for bind values. Placeholders are numbered only when a fragment is
written out (`render`), from left to right, so the position of a bind value among the parameters of
a fragment is always the position of its placeholder in the text. -/

namespace DataAccess.Sql

/-- A piece of a statement: text, or the place of a bind value. -/
inductive Piece where
  | text (s : String)
  | slot (p : Parameter)

/-- SQL text with slots. -/
abbrev Fragment := List Piece

namespace Fragment

/-- The bind values of a fragment, from left to right. -/
def params : Fragment → List Parameter
  | [] => []
  | .text _ :: ps => params ps
  | .slot p :: ps => p :: params ps

/-- A fragment as text, with its placeholders numbered from `next` on. -/
def render (d : Dialect) (next : Nat) : Fragment → String
  | [] => ""
  | .text s :: ps => s ++ render d next ps
  | .slot _ :: ps => d.placeholder next ++ render d (next + 1) ps

/-- Fragments with a separator between neighbours. -/
def join (separator : String) : List Fragment → Fragment
  | [] => []
  | [f] => f
  | f :: g :: fs => f ++ .text separator :: join separator (g :: fs)

@[simp] theorem params_append (f g : Fragment) : params (f ++ g) = params f ++ params g := by
  induction f with
  | nil => rfl
  | cons p ps ih => cases p <;> simp [params, ih]

/-- The second part of a fragment goes on with the numbers where the first part stopped. -/
theorem render_append (d : Dialect) (next : Nat) (f g : Fragment) :
    render d next (f ++ g) = render d next f ++ render d (next + (params f).length) g := by
  induction f generalizing next with
  | nil => simp [render, params]
  | cons p ps ih =>
      cases p with
      | text s => simp [render, params, ih, String.append_assoc]
      | slot p =>
          simp [render, params, ih, String.append_assoc, Nat.add_assoc, Nat.add_comm 1]

end Fragment

end DataAccess.Sql
