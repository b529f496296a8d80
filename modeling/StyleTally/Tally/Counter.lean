/-!
# Counters

A counter gives every key a count and keeps its keys in the order in which they first came. No key
comes twice. Two counters agree when they give every key the same count, where a key that is
missing counts zero.
-/

namespace StyleTally

namespace Entries

/-- Changes the count of a key; a key that is missing comes last, changed from zero. -/
def alter (f : Int → Int) (key : String) : List (String × Int) → List (String × Int)
  | [] => [(key, f 0)]
  | (k, n) :: rest => if k = key then (k, f n) :: rest else (k, n) :: alter f key rest

theorem keys_alter (f : Int → Int) (key : String) (es : List (String × Int)) :
    (alter f key es).map Prod.fst =
      if key ∈ es.map Prod.fst then es.map Prod.fst else es.map Prod.fst ++ [key] := by
  induction es with
  | nil => simp [alter]
  | cons e es ih =>
    obtain ⟨k, n⟩ := e
    rw [alter]
    by_cases h : k = key
    · simp [h]
    · have h' : key ≠ k := fun e => h e.symm
      simp only [if_neg h, List.map_cons, ih, List.mem_cons, h', false_or]
      split <;> simp

theorem nodup_alter (f : Int → Int) (key : String) {es : List (String × Int)}
    (h : (es.map Prod.fst).Nodup) : ((alter f key es).map Prod.fst).Nodup := by
  rw [keys_alter]
  split
  · exact h
  · rename_i hk
    rw [List.nodup_append]
    refine ⟨h, by simp, ?_⟩
    intro a ha b hb
    rintro rfl
    simp only [List.mem_singleton] at hb
    subst hb
    exact hk ha

end Entries

structure Counter where
  entries : List (String × Int)
  nodup : (entries.map Prod.fst).Nodup

namespace Counter

@[ext] theorem ext {c d : Counter} (h : c.entries = d.entries) : c = d := by
  cases c; cases d; simp_all

instance : DecidableEq Counter := fun c d =>
  if h : c.entries = d.entries then isTrue (ext h) else isFalse fun e => h (e ▸ rfl)

def empty : Counter := ⟨[], List.nodup_nil⟩

instance : Inhabited Counter := ⟨empty⟩

def keys (c : Counter) : List String := c.entries.map Prod.fst

def size (c : Counter) : Nat := c.entries.length

def isEmpty (c : Counter) : Bool := c.entries.isEmpty

def get (c : Counter) (key : String) : Int := (c.entries.lookup key).getD 0

def total (c : Counter) : Int := c.entries.foldr (fun (_, n) sum => n + sum) 0

def alter (c : Counter) (f : Int → Int) (key : String) : Counter :=
  ⟨Entries.alter f key c.entries, Entries.nodup_alter f key c.nodup⟩

def add (c : Counter) (key : String) (n : Int) : Counter := c.alter (· + n) key

def set (c : Counter) (key : String) (n : Int) : Counter := c.alter (fun _ => n) key

/-- Of two pairs with one key, the later gives the count and the earlier the place. -/
def ofPairs (pairs : List (String × Int)) : Counter :=
  pairs.foldl (fun c (key, n) => c.set key n) empty

/-- Adds every count of `d`, in the order of its keys. -/
def merge (c d : Counter) : Counter := d.entries.foldl (fun c (key, n) => c.add key n) c

/-- The entries by descending count; of equal counts, the earlier key comes first. -/
def ranked (c : Counter) : List (String × Int) := c.entries.mergeSort fun a b => b.2 ≤ a.2

def agrees (c d : Counter) : Bool :=
  (c.keys ++ d.keys).all fun key => c.get key == d.get key

theorem keys_add (c : Counter) (key : String) (n : Int) :
    (c.add key n).keys = if key ∈ c.keys then c.keys else c.keys ++ [key] :=
  Entries.keys_alter _ _ _

end Counter

end StyleTally
