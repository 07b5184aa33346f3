/-!
# Tables

Values under names, each name once. A name given again takes the new value in its old place.
-/

namespace TraceSampling

abbrev Table (α : Type) := List (String × α)

namespace Table

variable {α β : Type}

def put (name : String) (value : α) : Table α → Table α
  | [] => [(name, value)]
  | (n, v) :: rest => if n = name then (n, value) :: rest else (n, v) :: put name value rest

def get? (t : Table α) (name : String) : Option α := t.lookup name

def mapValues (f : α → β) (t : Table α) : Table β := t.map fun (n, v) => (n, f v)

@[simp] theorem put_nil (name : String) (value : α) : put name value [] = [(name, value)] := rfl

theorem get?_put (t : Table α) (name other : String) (value : α) :
    get? (put name value t) other = if other = name then some value else get? t other := by
  induction t with
  | nil => grind [get?, put]
  | cons entry rest ih => grind [get?, put]

@[simp] theorem mapValues_nil (f : α → β) : mapValues f [] = [] := rfl

theorem get?_mapValues (f : α → β) (t : Table α) (name : String) :
    get? (mapValues f t) name = (get? t name).map f := by
  induction t with
  | nil => rfl
  | cons entry rest ih => grind [get?, mapValues]

end Table

end TraceSampling
