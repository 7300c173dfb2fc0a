/-! Rosters: entries filed under a string key, every key once, in the order in which the keys were
first used. An entry put under a key in use takes the place of the old one. The key of an entry is read off
the entry and not kept beside it, so that no entry can be filed under another key than its own. -/
namespace PetriCode

structure Roster {α : Type} (key : α → String) where
  entries : List α
  distinct : (entries.map key).Nodup

namespace Roster
variable {α : Type} {key : α → String}

def empty : Roster key := ⟨[], List.Pairwise.nil⟩

def keys (roster : Roster key) : List String := roster.entries.map key

def size (roster : Roster key) : Nat := roster.entries.length

def find? (roster : Roster key) (k : String) : Option α :=
  roster.entries.find? fun entry => key entry == k

/-- The number of entries before the one filed under a key. -/
def position? (roster : Roster key) (k : String) : Option Nat :=
  roster.entries.findIdx? fun entry => key entry == k

/-- The entries with those of the new entry's key replaced by it. -/
def replaced (key : α → String) (entries : List α) (entry : α) : List α :=
  entries.map fun old => if key old = key entry then entry else old

theorem keys_replaced (entries : List α) (entry : α) :
    (replaced key entries entry).map key = entries.map key := by
  induction entries with
  | nil => rfl
  | cons old rest ih =>
    simp only [replaced, List.map_cons] at ih ⊢
    rw [ih]
    split <;> simp_all

theorem nodup_append_key {entries : List α} {entry : α} (distinct : (entries.map key).Nodup)
    (fresh : key entry ∉ entries.map key) : ((entries ++ [entry]).map key).Nodup := by
  rw [List.map_append, List.nodup_append]
  refine ⟨distinct, by simp, ?_⟩
  intro old member new only equal
  obtain rfl : new = key entry := by simpa using only
  exact fresh (equal ▸ member)

def insert (roster : Roster key) (entry : α) : Roster key :=
  if used : key entry ∈ roster.entries.map key then
    ⟨replaced key roster.entries entry, by rw [keys_replaced]; exact roster.distinct⟩
  else
    ⟨roster.entries ++ [entry], nodup_append_key roster.distinct used⟩

/-- Files an entry and hands back the one whose place it took. -/
def put (roster : Roster key) (entry : α) : Option α × Roster key :=
  (roster.find? (key entry), roster.insert entry)

end Roster
end PetriCode
