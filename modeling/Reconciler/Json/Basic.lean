set_option autoImplicit false

namespace Reconciler

inductive Json where
  | null
  | bool (value : Bool)
  | integer (value : Int)
  | decimal (negative : Bool) (digits : Nat) (exponent : Int)
  | string (value : String)
  | array (items : List Json)
  | object (members : List (String × Json))
  deriving Inhabited, Repr

namespace Json

mutual
def decEq : (a b : Json) → Decidable (a = b)
  | .null, .null => .isTrue rfl
  | .bool a, .bool b => if h : a = b then .isTrue (h ▸ rfl) else .isFalse (fun e => h (Json.bool.inj e))
  | .integer a, .integer b =>
      if h : a = b then .isTrue (h ▸ rfl) else .isFalse (fun e => h (Json.integer.inj e))
  | .decimal n d e, .decimal n' d' e' =>
      if h : n = n' ∧ d = d' ∧ e = e' then .isTrue (by obtain ⟨rfl, rfl, rfl⟩ := h; rfl)
      else .isFalse (fun q => h (Json.decimal.inj q))
  | .string a, .string b => if h : a = b then .isTrue (h ▸ rfl) else .isFalse (fun e => h (Json.string.inj e))
  | .array a, .array b =>
      match decEqItems a b with
      | .isTrue h => .isTrue (h ▸ rfl)
      | .isFalse h => .isFalse (fun e => h (Json.array.inj e))
  | .object a, .object b =>
      match decEqMembers a b with
      | .isTrue h => .isTrue (h ▸ rfl)
      | .isFalse h => .isFalse (fun e => h (Json.object.inj e))
  | .null, .bool _ | .null, .integer _ | .null, .decimal .. | .null, .string _ | .null, .array _ | .null, .object _
  | .bool _, .null | .bool _, .integer _ | .bool _, .decimal .. | .bool _, .string _ | .bool _, .array _
  | .bool _, .object _ | .integer _, .null | .integer _, .bool _ | .integer _, .decimal .. | .integer _, .string _
  | .integer _, .array _ | .integer _, .object _ | .decimal .., .null | .decimal .., .bool _
  | .decimal .., .integer _ | .decimal .., .string _ | .decimal .., .array _ | .decimal .., .object _
  | .string _, .null | .string _, .bool _ | .string _, .integer _ | .string _, .decimal .. | .string _, .array _
  | .string _, .object _ | .array _, .null | .array _, .bool _ | .array _, .integer _ | .array _, .decimal ..
  | .array _, .string _ | .array _, .object _ | .object _, .null | .object _, .bool _ | .object _, .integer _
  | .object _, .decimal .. | .object _, .string _ | .object _, .array _ => .isFalse nofun

def decEqItems : (a b : List Json) → Decidable (a = b)
  | [], [] => .isTrue rfl
  | [], _ :: _ | _ :: _, [] => .isFalse nofun
  | x :: xs, y :: ys =>
      match decEq x y, decEqItems xs ys with
      | .isTrue h, .isTrue t => .isTrue (h ▸ t ▸ rfl)
      | .isFalse h, _ => .isFalse (fun e => h (List.cons.inj e).1)
      | _, .isFalse t => .isFalse (fun e => t (List.cons.inj e).2)

def decEqMembers : (a b : List (String × Json)) → Decidable (a = b)
  | [], [] => .isTrue rfl
  | [], _ :: _ | _ :: _, [] => .isFalse nofun
  | (k, x) :: xs, (l, y) :: ys =>
      if n : k = l then
        match decEq x y, decEqMembers xs ys with
        | .isTrue h, .isTrue t => .isTrue (n ▸ h ▸ t ▸ rfl)
        | .isFalse h, _ => .isFalse (fun e => h (Prod.mk.inj (List.cons.inj e).1).2)
        | _, .isFalse t => .isFalse (fun e => t (List.cons.inj e).2)
      else .isFalse (fun e => n (Prod.mk.inj (List.cons.inj e).1).1)
end

instance : DecidableEq Json := decEq

def lookup (name : String) : List (String × Json) → Option Json
  | [] => none
  | (key, value) :: rest =>
      match lookup name rest with
      | some later => some later
      | none => if key = name then some value else none

def eachOnce (names : List String) (members : List (String × Json)) : Bool :=
  names.all fun name => (members.map Prod.fst).count name ≤ 1

@[simp] theorem lookup_nil (name : String) : lookup name [] = none := rfl

def member? (name : String) : Json → Option Json
  | .object members => lookup name members
  | _ => none

def string? : Json → Option String
  | .string s => some s
  | _ => none

def bool? : Json → Option Bool
  | .bool b => some b
  | _ => none

def integer? : Json → Option Int
  | .integer n => some n
  | _ => none

def items? : Json → Option (List Json)
  | .array items => some items
  | _ => none

def ofMembers (members : List (String × Option Json)) : Json :=
  .object (members.filterMap fun (name, value) => value.map (name, ·))

end Json

end Reconciler
