import ReportRelay.Json.Record
import ReportRelay.Proofs.Json.Reading

/-!
# JSON values

Whatever is JSON is read as a value. A text, a list and an object are read from what they are written as, if their
parts are.
-/

namespace ReportRelay.Json

/-- The members of an object stay in the order in which they come. -/
inductive Value
  | null
  | bool (value : Bool)
  | number (value : Number)
  | text (value : String)
  | list (elements : List Value)
  | object (members : List (String × Value))

namespace Value

/-- The first member with this name. -/
def member? (name : String) : Value → Option Value
  | object members => members.lookup name
  | _ => none

theorem member?_cons (name key : String) (value : Value) (members : List (String × Value)) :
    member? name (object ((key, value) :: members)) =
      if name = key then some value else member? name (object members) := by
  change (match name == key with
    | true => some value
    | false => members.lookup name) = _
  by_cases h : name = key
  · rw [if_pos h, beq_iff_eq.2 h]
  · rw [if_neg h, beq_eq_false_iff_ne.2 h]
    rfl

def list? : Value → Option (List Value)
  | list elements => some elements
  | _ => none

end Value

namespace Reader

variable {α : Type}

/-- Items up to a closing mark, at least one, with commas between them. -/
def items (closing : Char) (item : Reader α) : Nat → Reader (List α)
  | 0 => fail
  | fuel + 1 => do
    let a ← item
    if (← next) = some (byte ',') then do
      expect ','
      let rest ← items closing item fuel
      return a :: rest
    else do
      expect closing
      return [a]

def enclosed (opening closing : Char) (item : Reader α) : Reader (List α) := do
  expect opening
  if (← next) = some (byte closing) then do
    expect closing
    return []
  else items closing item (← get).length

def member (value : Reader α) : Reader (String × α) := do
  expect '"'
  let key ← openText
  expect ':'
  let a ← value
  return (key, a)

/-- A value that is nested no more deeply than this. -/
def value : Nat → Reader Value
  | 0 => fail
  | depth + 1 => do
    match ← next with
    | none => fail
    | some b =>
      if b = byte '"' then do
        let t ← text
        return .text t
      else if b = byte '[' then do
        let elements ← enclosed '[' ']' (value depth)
        return .list elements
      else if b = byte '\x7b' then do
        let members ← enclosed '\x7b' '\x7d' (member (value depth))
        return .object members
      else if b = byte 'n' then do
        word "null"
        return .null
      else if b = byte 't' then do
        word "true"
        return .bool true
      else if b = byte 'f' then do
        word "false"
        return .bool false
      else do
        let n ← number
        return .number n

/-- How deeply the parts of a value may be nested. -/
def maxDepth : Nat := 128

end Reader

/-- Reads whatever JSON the input is. -/
def Value.read (input : Bytes) : Except Fault Value :=
  Json.read (Reader.value Reader.maxDepth) input

open Reader

variable {ι α : Type} {opening closing : Char} {item : Reader α} {write : ι → String} {val : ι → α} {is : List ι}

/-- The text begins with the mark of a text, a list or an object. -/
def Begins (text : String) : Prop :=
  ∃ first rest, Bytes.ofText text = first :: rest ∧
    (first = byte '"' ∨ first = byte '[' ∨ first = byte '\x7b')

theorem begins_quoted (text : String) : Begins (quoted text) :=
  ⟨_, _, ofText_quoted text, .inl rfl⟩

theorem Begins.append {text : String} (h : Begins text) (more : String) : Begins (text ++ more) := by
  obtain ⟨first, rest, hbytes, hfirst⟩ := h
  refine ⟨first, rest ++ Bytes.ofText more, ?_, hfirst⟩
  rw [Bytes.ofText_append, hbytes, List.cons_append]

theorem begins_member (key text : String) : Begins (quoted key ++ ":" ++ text) :=
  ((begins_quoted key).append _).append _

theorem Begins.intercalate {text : String} (h : Begins text) (texts : List String) :
    Begins (",".intercalate (text :: texts)) := by
  cases texts with
  | nil => rwa [String.intercalate_singleton]
  | cons more texts =>
    rw [String.intercalate_cons_cons]
    exact (h.append _).append _

theorem reads_items (hspace : isSpace (byte closing) = false) (hcomma : byte closing ≠ byte ',') {i : ι}
    (hitems : ∀ j ∈ i :: is, Reads item (Bytes.ofText (write j)) (val j)) (fuel : Nat)
    (hfuel : (Bytes.ofText (",".intercalate ((i :: is).map write)) ++ [byte closing]).length ≤ fuel) :
    Reads (items closing item fuel) (Bytes.ofText (",".intercalate ((i :: is).map write)) ++ [byte closing])
      ((i :: is).map val) := by
  induction is generalizing i fuel with
  | nil =>
    obtain ⟨left, rfl⟩ : ∃ left, fuel = left + 1 := ⟨fuel - 1, by simp at hfuel; omega⟩
    rw [List.map_singleton, String.intercalate_singleton]
    refine (hitems i List.mem_cons_self).bind (Reads.next_bind hspace ?_)
    rw [if_neg (by simpa using hcomma)]
    exact Reads.expect_bind hspace (Reads.pure _)
  | cons j is ih =>
    have hshape : Bytes.ofText (",".intercalate ((i :: j :: is).map write)) ++ [byte closing] =
        Bytes.ofText (write i) ++
          (byte ',' :: (Bytes.ofText (",".intercalate ((j :: is).map write)) ++ [byte closing])) := by
      have hmark : Bytes.ofText "," = [byte ','] := by decide
      rw [List.map_cons, List.map_cons, String.intercalate_cons_cons, Bytes.ofText_append, Bytes.ofText_append, hmark,
        List.append_assoc, List.append_assoc, List.singleton_append]
    rw [hshape] at hfuel ⊢
    rw [List.length_append, List.length_cons] at hfuel
    obtain ⟨left, rfl⟩ : ∃ left, fuel = left + 1 := ⟨fuel - 1, by omega⟩
    refine (hitems i List.mem_cons_self).bind (Reads.next_bind (by decide) ?_)
    rw [if_pos rfl]
    refine Reads.expect_bind (by decide) ?_
    exact (ih (fun k hk => hitems k (List.mem_cons_of_mem i hk)) left (by omega)).bind_pure _

theorem reads_enclosed (opening closing : Char) (write : ι → String) (val : ι → α)
    (hopening : isSpace (byte opening) = false) (hspace : isSpace (byte closing) = false)
    (hclosing : byte closing ∉ [byte ',', byte '"', byte '[', byte '\x7b'])
    (hitems : ∀ i ∈ is, Begins (write i) ∧ Reads item (Bytes.ofText (write i)) (val i)) :
    Reads (enclosed opening closing item)
      (byte opening :: (Bytes.ofText (",".intercalate (is.map write)) ++ [byte closing])) (is.map val) := by
  refine Reads.expect_bind hopening ?_
  cases is with
  | nil =>
    refine Reads.next_bind hspace ?_
    rw [if_pos rfl]
    exact Reads.expect_bind hspace (Reads.pure _)
  | cons i is =>
    obtain ⟨first, more, hbytes, hfirst⟩ := (hitems i List.mem_cons_self).1.intercalate (is.map write)
    rw [← List.map_cons] at hbytes
    have hread := reads_items hspace (fun h => hclosing (by simp [h])) fun j hj => (hitems j hj).2
    rw [hbytes] at hread ⊢
    refine Reads.next_bind ?_ ?_
    · rcases hfirst with rfl | rfl | rfl <;> decide
    · rw [if_neg]
      · exact Reads.length_bind hread
      · intro h
        refine hclosing ?_
        rw [← Option.some.inj h]
        rcases hfirst with rfl | rfl | rfl <;> decide

theorem reads_member {key text : String} {value : Reader α} {a : α} (h : Reads value (Bytes.ofText text) a) :
    Reads (member value) (Bytes.ofText (quoted key ++ ":" ++ text)) (key, a) := by
  have hmark : Bytes.ofText ":" = [byte ':'] := by decide
  rw [Bytes.ofText_append, Bytes.ofText_append, ofText_quoted, hmark, List.append_assoc, List.cons_append]
  refine Reads.expect_bind (by decide) ((reads_openText key).bind (Reads.expect_bind (by decide) ?_))
  exact h.bind_pure _

/-! ## Values -/

variable {depth : Nat} {value : ι → Value}

theorem reads_value_text (text : String) :
    Reads (Reader.value (depth + 1)) (Bytes.ofText (quoted text)) (.text text) := by
  have hread := reads_text text
  rw [ofText_quoted] at hread ⊢
  refine Reads.next_bind (by decide) ?_
  dsimp only
  rw [if_pos rfl]
  exact hread.bind_pure _

theorem reads_value_list
    (h : ∀ i ∈ is, Begins (write i) ∧ Reads (Reader.value depth) (Bytes.ofText (write i)) (value i)) :
    Reads (Reader.value (depth + 1)) (Bytes.ofText (list (is.map write))) (.list (is.map value)) := by
  have hopening : Bytes.ofText "[" = [byte '['] := by decide
  have hclosing : Bytes.ofText "]" = [byte ']'] := by decide
  have hread := reads_enclosed '[' ']' write value (by decide) (by decide) (by decide) h
  unfold list
  rw [Bytes.ofText_append, Bytes.ofText_append, hopening, hclosing, List.append_assoc, List.singleton_append]
  refine Reads.next_bind (by decide) ?_
  dsimp only
  rw [if_neg (by decide), if_pos rfl]
  exact hread.bind_pure _

theorem reads_value_texts (ts : List String) :
    Reads (Reader.value (depth + 2)) (Bytes.ofText (texts ts)) (.list (ts.map .text)) :=
  reads_value_list fun t _ => ⟨begins_quoted t, reads_value_text t⟩

/-- A member of an object, with what its value is written as. -/
structure Part where
  name : String
  written : String
  value : Value

theorem reads_value_object {parts : List Part}
    (h : ∀ part ∈ parts, Reads (Reader.value depth) (Bytes.ofText part.written) part.value) :
    Reads (Reader.value (depth + 1)) (Bytes.ofText (object (parts.map fun part => (part.name, part.written))))
      (.object (parts.map fun part => (part.name, part.value))) := by
  have hopening : Bytes.ofText "\x7b" = [byte '\x7b'] := by decide
  have hclosing : Bytes.ofText "\x7d" = [byte '\x7d'] := by decide
  have hread := reads_enclosed '\x7b' '\x7d' (fun part : Part => quoted part.name ++ ":" ++ part.written)
    (fun part : Part => (part.name, part.value)) (by decide) (by decide) (by decide)
    fun part hpart => ⟨begins_member _ _, reads_member (h part hpart)⟩
  unfold object
  rw [Bytes.ofText_append, Bytes.ofText_append, hopening, hclosing, List.append_assoc, List.singleton_append,
    List.map_map]
  refine Reads.next_bind (by decide) ?_
  dsimp only
  rw [if_neg (by decide), if_neg (by decide), if_pos rfl]
  exact hread.bind_pure _

theorem Reads.read {reader : Reader α} {bytes : Bytes} {a : α} (h : Reads reader bytes a) :
    Json.read reader bytes = .ok a := by
  have hrun := h []
  rw [List.append_nil] at hrun
  rw [Json.read, hrun]
  rfl

end ReportRelay.Json
