import StyleTally.Proofs.Tally.Merging

/-!
# Shelves of stores

Stores are held by reference: several classifiers may count into one store, and a store may be
merged into itself. A shelf holds the stores and the classifiers that there are, and requests to it
change one store or put a new one behind the others. A request that is refused changes nothing: all
but scans ask whether a store is frozen before they change it, and a scan is refused at its first
mark.
-/

namespace StyleTally

open Stylesheet

namespace Store

/-- A frozen store refuses the first mark that it is given. -/
theorem markAll_of_frozen {s : Store} (h : s.frozen) (m : Mark) (ms : List Mark) :
    s.markAll (m :: ms) = .error (.frozen m.part.name) := by
  have hmark : s.mark m = .error (.frozen m.part.name) := by
    simp [mark, add, h]
  rw [markAll_cons, hmark]
  rfl

/-- Counts marks one after the other up to the first that is refused: the store as it then stands,
and the fault. -/
def markUpTo (s : Store) : List Mark → Store × Option StoreFault
  | [] => (s, none)
  | m :: ms =>
    match s.mark m with
    | .ok t => t.markUpTo ms
    | .error fault => (s, some fault)

theorem markUpTo_of_unfrozen {s : Store} (h : s.frozen = false) (ms : List Mark) :
    s.markUpTo ms = (s.record ms, none) := by
  induction ms generalizing s with
  | nil => rfl
  | cons m ms ih =>
    have hmark : s.mark m = .ok (s.alter m.part fun c => c.add m.key 1) := by
      simp [mark, add, h]
    rw [markUpTo, hmark]
    exact ih h

/-- A store that refuses a mark has taken none of the marks before it. -/
theorem markUpTo_eq (s : Store) (ms : List Mark) :
    s.markUpTo ms =
      match s.markAll ms with
      | .ok t => (t, none)
      | .error fault => (s, some fault) := by
  cases hfrozen : s.frozen with
  | false => rw [markUpTo_of_unfrozen hfrozen, markAll_of_unfrozen hfrozen]
  | true =>
    cases ms with
    | nil => rfl
    | cons m ms =>
      have hmark : s.mark m = .error (.frozen m.part.name) := by
        simp [mark, add, hfrozen]
      rw [markAll_of_frozen hfrozen, markUpTo, hmark]

end Store

namespace Classifier

/-- Over a frozen store, only stylesheets that leave no marks are scanned. -/
theorem scan_of_frozen {c d : Classifier} {sheet : Sheet} (h : c.store.frozen)
    (hscan : c.scan sheet = .ok d) :
    Mark.ofStatements c.statements sheet = [] ∧ d.store = c.store := by
  rw [scan, Store.scanStatements_eq] at hscan
  cases hmarks : Mark.ofStatements c.statements sheet with
  | nil =>
    rw [hmarks] at hscan
    cases hscan
    exact ⟨rfl, rfl⟩
  | cons m ms =>
    rw [hmarks, Store.markAll_of_frozen h] at hscan
    cases hscan

end Classifier

/-- A classifier over a store on the shelf. -/
structure Clerk where
  store : Nat
  statements : Bool
  filesScanned : Nat
  deriving DecidableEq, Repr

structure Shelf where
  stores : List Store
  clerks : List Clerk

namespace Shelf

/-- What can be asked of a store. -/
inductive Query where
  | total (name : String)
  | ranked (name : String)
  | get (name key : String)
  | agrees (other : Nat)
  | isEmpty
  | isFrozen
  | toPairs
  | describe
  deriving DecidableEq, Repr

/-- What can be asked of a shelf. Stores and classifiers are given by their places. -/
inductive Request where
  | create
  | ofPairs (data : List (String × List (String × Int)))
  | incr (store : Nat) (name key : String)
  | merge (into source : Nat)
  | mergeAll (sources : List Nat)
  | freeze (store : Nat)
  | copy (store : Nat)
  | pickle (store : Nat)
  | query (store : Nat) (query : Query)
  | hire (store : Nat) (statements : Bool)
  | scan (clerk : Nat) (sheet : Sheet)
  | snapshot (clerk : Nat)

inductive Reply where
  | done
  /-- A new store or classifier, at the place. -/
  | made (place : Nat)
  | number (n : Int)
  | truth (b : Bool)
  | pairs (pairs : List (String × Int))
  | sections (sections : List (String × List (String × Int)))
  | text (text : String)
  deriving DecidableEq, Repr

inductive Refusal where
  | fault (fault : StoreFault)
  /-- There is nothing at the place. -/
  | missing
  deriving DecidableEq, Repr

variable (shelf : Shelf)

def store (i : Nat) : Except Refusal Store :=
  match shelf.stores[i]? with
  | some s => .ok s
  | none => .error .missing

def clerk (c : Nat) : Except Refusal Clerk :=
  match shelf.clerks[c]? with
  | some clerk => .ok clerk
  | none => .error .missing

def put (i : Nat) (s : Store) : Shelf := { shelf with stores := shelf.stores.set i s }

/-- A store behind those that are there. -/
def push (s : Store) : Reply × Shelf :=
  (.made shelf.stores.length, { shelf with stores := shelf.stores ++ [s] })

def answer (s : Store) : Query → Except Refusal Reply
  | .total name => do
    let c ← (s.named name).mapError .fault
    return .number c.total
  | .ranked name => do
    let c ← (s.named name).mapError .fault
    return .pairs c.ranked
  | .get name key => do
    let c ← (s.named name).mapError .fault
    return .number (c.get key)
  | .agrees other => do
    let t ← shelf.store other
    return .truth (s.agrees t)
  | .isEmpty => return .truth s.isEmpty
  | .isFrozen => return .truth s.frozen
  | .toPairs => return .sections s.toPairs
  | .describe => return .text s.describe

/-- A request with its reply and the shelf after it. -/
def attempt : Request → Except Refusal (Reply × Shelf)
  | .create => return shelf.push .empty
  | .ofPairs data => do
    let s ← (Store.ofPairs data).mapError .fault
    return shelf.push s
  | .incr i name key => do
    let s ← shelf.store i
    let s ← (s.addNamed name key).mapError .fault
    return (.done, shelf.put i s)
  | .merge i j => do
    let s ← shelf.store i
    let source ← shelf.store j
    let s ← (s.merge source).mapError .fault
    return (.done, shelf.put i s)
  | .mergeAll sources => do
    let parts ← sources.mapM shelf.store
    return shelf.push (Store.mergeAll parts)
  | .freeze i => do
    let s ← shelf.store i
    return (.done, shelf.put i s.freeze)
  | .copy i => do
    let s ← shelf.store i
    return shelf.push s.copy
  | .pickle i => do
    let s ← shelf.store i
    return shelf.push (.ofState s.state)
  | .query i q => do
    let s ← shelf.store i
    let reply ← shelf.answer s q
    return (reply, shelf)
  | .hire i statements => do
    let _ ← shelf.store i
    return (.made shelf.clerks.length, { shelf with clerks := shelf.clerks ++ [⟨i, statements, 0⟩] })
  | .scan c sheet => do
    let clerk ← shelf.clerk c
    let s ← shelf.store clerk.store
    let after ← (Classifier.scan ⟨s, clerk.statements, clerk.filesScanned⟩ sheet).mapError .fault
    return (.done,
      { shelf.put clerk.store after.store with
        clerks := shelf.clerks.set c { clerk with filesScanned := after.filesScanned } })
  | .snapshot c => do
    let clerk ← shelf.clerk c
    let s ← shelf.store clerk.store
    return shelf.push (Classifier.snapshot ⟨s, clerk.statements, clerk.filesScanned⟩)

/-- Scans into the store of a classifier, mark by mark: what has been counted when a mark is refused
stays counted. A stylesheet that is refused is none of the files scanned. -/
def scanInto (c : Nat) (clerk : Clerk) (s : Store) (sheet : Sheet) : Except Refusal Reply × Shelf :=
  match s.markUpTo (Mark.ofStatements clerk.statements sheet) with
  | (reached, some fault) => (.error (.fault fault), shelf.put clerk.store reached)
  | (reached, none) =>
    (.ok .done,
      { shelf.put clerk.store reached with
        clerks := shelf.clerks.set c { clerk with filesScanned := clerk.filesScanned + 1 } })

/-- The reply to a request, and the shelf as the request leaves it, refused or not. A scan is the
one request that changes a store several times. -/
def perform (request : Request) : Except Refusal Reply × Shelf :=
  match request with
  | .scan c sheet =>
    match shelf.clerk c with
    | .error e => (.error e, shelf)
    | .ok clerk =>
      match shelf.store clerk.store with
      | .error e => (.error e, shelf)
      | .ok s => shelf.scanInto c clerk s sheet
  | request =>
    match shelf.attempt request with
    | .ok (reply, after) => (.ok reply, after)
    | .error e => (.error e, shelf)

/-- The shelf after a request. -/
def next (request : Request) : Shelf := (shelf.perform request).2

/-- The shelf after requests one after the other. -/
def after (requests : List Request) : Shelf := requests.foldl next shelf

variable {shelf}

theorem store_eq {i : Nat} {s : Store} (h : shelf.stores[i]? = some s) : shelf.store i = .ok s := by
  rw [store, h]

theorem clerk_eq {c : Nat} {clerk : Clerk} (h : shelf.clerks[c]? = some clerk) :
    shelf.clerk c = .ok clerk := by
  rw [Shelf.clerk, h]

/-- How a request may change the stores: it leaves them, puts a new one behind them, or changes one,
which must not be frozen. -/
inductive Alters (stores : List Store) : List Store → Prop
  | same : Alters stores stores
  | more (s : Store) : Alters stores (stores ++ [s])
  | one {i : Nat} {s : Store} (t : Store) (h : stores[i]? = some s) (hfrozen : s.frozen → t = s) :
    Alters stores (stores.set i t)

theorem Alters.frozen {stores stores' : List Store} (h : Alters stores stores') {i : Nat} {s : Store}
    (hs : stores[i]? = some s) (hfrozen : s.frozen) : stores'[i]? = some s := by
  cases h with
  | same => exact hs
  | more t =>
    have hi : i < stores.length := (List.getElem?_eq_some_iff.mp hs).1
    rw [List.getElem?_append_left hi, hs]
  | @one j u t hu ht =>
    by_cases hij : j = i
    · subst hij
      obtain rfl : u = s := Option.some.inj (hu.symm.trans hs)
      rw [ht hfrozen, List.getElem?_set_self', hs]
      rfl
    · rw [List.getElem?_set_ne hij, hs]

theorem ok_of_bind {α β : Type} {x : Except Refusal α} {f : α → Except Refusal β} {b : β}
    (h : x >>= f = .ok b) : ∃ a, x = .ok a ∧ f a = .ok b := by
  cases x with
  | error e => cases h
  | ok a => exact ⟨a, rfl, h⟩

theorem ok_of_mapError {α : Type} {x : Except StoreFault α} {a : α}
    (h : x.mapError Refusal.fault = .ok a) : x = .ok a := by
  cases x with
  | error e => cases h
  | ok b =>
    cases h
    rfl

theorem getElem?_of_store {i : Nat} {s : Store} (h : shelf.store i = .ok s) :
    shelf.stores[i]? = some s := by
  rw [store] at h
  split at h
  · cases h
    assumption
  · cases h

/-- What a classifier over a store on the shelf does. -/
theorem attempt_scan {c : Nat} {clerk : Clerk} {s : Store} (hclerk : shelf.clerk c = .ok clerk)
    (h : shelf.store clerk.store = .ok s) (sheet : Sheet) :
    shelf.attempt (.scan c sheet) =
      match Classifier.scan ⟨s, clerk.statements, clerk.filesScanned⟩ sheet with
      | .ok after => .ok (.done, { shelf.put clerk.store after.store with
          clerks := shelf.clerks.set c { clerk with filesScanned := after.filesScanned } })
      | .error fault => .error (.fault fault) := by
  simp only [attempt, hclerk, bind, Except.bind, h]
  cases Classifier.scan ⟨s, clerk.statements, clerk.filesScanned⟩ sheet <;> rfl

theorem put_self {i : Nat} {s : Store} (h : shelf.stores[i]? = some s) : shelf.put i s = shelf := by
  have hset : shelf.stores.set i s = shelf.stores := by
    obtain ⟨hi, rfl⟩ := List.getElem?_eq_some_iff.mp h
    exact List.set_getElem_self hi
  rw [put, hset]

/-- Mark by mark a scan comes to what it is as a whole. -/
theorem scanInto_eq {c : Nat} {clerk : Clerk} {s : Store} (hclerk : shelf.clerk c = .ok clerk)
    (h : shelf.store clerk.store = .ok s) (sheet : Sheet) :
    shelf.scanInto c clerk s sheet =
      match shelf.attempt (.scan c sheet) with
      | .ok (reply, after) => (.ok reply, after)
      | .error e => (.error e, shelf) := by
  rw [attempt_scan hclerk h, scanInto, Store.markUpTo_eq, Classifier.scan, Store.scanStatements_eq]
  cases s.markAll (Mark.ofStatements clerk.statements sheet) with
  | ok t => rfl
  | error fault => exact congrArg (Prod.mk _) (put_self (getElem?_of_store h))

/-- A request that is refused leaves the shelf as it was. -/
theorem perform_eq (request : Request) :
    shelf.perform request =
      match shelf.attempt request with
      | .ok (reply, after) => (.ok reply, after)
      | .error e => (.error e, shelf) := by
  cases request with
  | scan c sheet =>
    rw [perform]
    cases hclerk : shelf.clerk c with
    | error e => simp [attempt, hclerk, bind, Except.bind]
    | ok clerk =>
      cases hstore : shelf.store clerk.store with
      | error e => simp [attempt, hclerk, hstore, bind, Except.bind]
      | ok s =>
        simp only [hstore]
        exact scanInto_eq hclerk hstore sheet
  | _ => rfl

theorem next_of_ok {request : Request} {reply : Reply} {after : Shelf}
    (h : shelf.attempt request = .ok (reply, after)) : shelf.next request = after := by
  rw [next, perform_eq, h]

theorem next_of_refused {request : Request} {e : Refusal} (h : shelf.attempt request = .error e) :
    shelf.next request = shelf := by
  rw [next, perform_eq, h]

/-- A request is refused and leaves the shelf, or is carried out. -/
theorem next_cases (request : Request) :
    shelf.next request = shelf ∨
      ∃ reply, shelf.attempt request = .ok (reply, shelf.next request) := by
  cases hattempt : shelf.attempt request with
  | error e => exact .inl (next_of_refused hattempt)
  | ok p => exact .inr ⟨p.1, by rw [next_of_ok hattempt]⟩

theorem attempt_alters {request : Request} {reply : Reply} {after : Shelf}
    (h : shelf.attempt request = .ok (reply, after)) : Alters shelf.stores after.stores := by
  cases request with
  | create =>
    cases h
    exact .more _
  | ofPairs data =>
    obtain ⟨s, -, h⟩ := ok_of_bind h
    cases h
    exact .more s
  | incr i name key =>
    obtain ⟨s, hs, h⟩ := ok_of_bind h
    obtain ⟨t, ht, h⟩ := ok_of_bind h
    cases h
    refine .one t (getElem?_of_store hs) ?_
    intro hfrozen
    have ht := ok_of_mapError ht
    simp [Store.addNamed, hfrozen] at ht
  | merge i j =>
    obtain ⟨s, hs, h⟩ := ok_of_bind h
    obtain ⟨source, -, h⟩ := ok_of_bind h
    obtain ⟨t, ht, h⟩ := ok_of_bind h
    cases h
    refine .one t (getElem?_of_store hs) ?_
    intro hfrozen
    have ht := ok_of_mapError ht
    simp [Store.merge, hfrozen] at ht
  | mergeAll sources =>
    obtain ⟨parts, -, h⟩ := ok_of_bind h
    cases h
    exact .more _
  | freeze i =>
    obtain ⟨s, hs, h⟩ := ok_of_bind h
    cases h
    refine .one s.freeze (getElem?_of_store hs) ?_
    intro hfrozen
    exact Store.eq_of_counters (fun _ => rfl) hfrozen.symm
  | copy i | pickle i =>
    obtain ⟨s, -, h⟩ := ok_of_bind h
    cases h
    exact .more _
  | query i q =>
    obtain ⟨s, -, h⟩ := ok_of_bind h
    obtain ⟨reply, -, h⟩ := ok_of_bind h
    cases h
    exact .same
  | hire i statements =>
    obtain ⟨s, -, h⟩ := ok_of_bind h
    cases h
    exact .same
  | scan c sheet =>
    obtain ⟨clerk, -, h⟩ := ok_of_bind h
    obtain ⟨s, hs, h⟩ := ok_of_bind h
    obtain ⟨d, hd, h⟩ := ok_of_bind h
    cases h
    refine .one d.store (getElem?_of_store hs) ?_
    intro hfrozen
    exact (Classifier.scan_of_frozen hfrozen (ok_of_mapError hd)).2
  | snapshot c =>
    obtain ⟨clerk, -, h⟩ := ok_of_bind h
    obtain ⟨s, -, h⟩ := ok_of_bind h
    cases h
    exact .more _

end Shelf

end StyleTally
