import CrossChain.Hermes.Output
import CrossChain.Proofs.Json.Position

/-!
# The outermost events of a result

The search for events of a name finds those that are inside no other, each once and in document
order (`findEvents_outermost`), and nothing else can be said to be these (`findEvents_exact`).
-/

namespace CrossChain

namespace Hermes

open Json (Position children nodeAt Listed)

/-! ## Events -/

/-- The event of a name that a node is: an object that is a member of that name. -/
def eventOf? (name : Text) : Json.Node → Option (Table Json)
  | (some key, .obj event) => if key = name then some event else none
  | _ => none

/-- The event of a name that stands at a position. -/
def eventAt? (name : Text) (node : Json.Node) (p : Position) : Option (Table Json) :=
  (nodeAt node p).bind (eventOf? name)

/-- At a position stands an event of a name, and none on the way to it. -/
def Outermost (name : Text) (node : Json.Node) (p : Position) : Prop :=
  (eventAt? name node p).isSome ∧ ∀ q, q <+: p → q ≠ p → eventAt? name node q = none

/-- Events are the outermost ones of a name in a value, each once and in document order. -/
def OutermostEvents (name : Text) (v : Json) (events : List (Table Json)) : Prop :=
  Listed (Outermost name (none, v)) (eventAt? name (none, v)) events

/-! ## From children to their parent -/

section Children

variable {name : Text} {node : Json.Node} {nodes : List Json.Node} {events rest : List (Table Json)}

/-- The event at a position that starts among several nodes. -/
def eventAmong? (name : Text) (nodes : List Json.Node) : Position → Option (Table Json)
  | [] => none
  | i :: p => nodes[i]?.bind fun node => eventAt? name node p

/-- A position that starts among several nodes, and is that of an outermost event from there. -/
def OutermostAmong (name : Text) (nodes : List Json.Node) : Position → Prop
  | [] => False
  | i :: p => ∃ node, nodes[i]? = some node ∧ Outermost name node p

/-- The outermost events among several nodes. -/
def EventsAmong (name : Text) (nodes : List Json.Node) (events : List (Table Json)) : Prop :=
  Listed (OutermostAmong name nodes) (eventAmong? name nodes) events

theorem eventAt?_cons (i : Nat) (p : Position) :
    eventAt? name node (i :: p) = eventAmong? name (children node.2) (i :: p) := by
  rw [eventAt?, nodeAt, eventAmong?, Option.bind_assoc]
  rfl

theorem outermost_of_event {event : Table Json} (h : eventOf? name node = some event)
    (p : Position) : Outermost name node p ↔ p = [] := by
  have hroot : eventAt? name node [] = some event := h
  constructor
  · intro hp
    apply Decidable.byContradiction
    intro hne
    have hnone := hp.2 [] List.nil_prefix (Ne.symm hne)
    rw [hroot] at hnone
    cases hnone
  · rintro rfl
    exact ⟨by rw [hroot]; rfl, fun q hq hne => absurd (List.prefix_nil.1 hq) hne⟩

theorem outermost_of_no_event (h : eventOf? name node = none) (p : Position) :
    Outermost name node p ↔ OutermostAmong name (children node.2) p := by
  have hroot : eventAt? name node [] = none := h
  cases p with
  | nil =>
    apply iff_of_false _ id
    intro hp
    have hsome := hp.1
    rw [hroot] at hsome
    cases hsome
  | cons i p =>
    rw [Outermost, eventAt?_cons, eventAmong?, OutermostAmong]
    cases hchild : (children node.2)[i]? with
    | none =>
      apply iff_of_false
      · intro hp
        cases hp.1
      · rintro ⟨_, hnode, -⟩
        cases hnode
    | some child =>
      have hbelow : ∀ q, eventAt? name node (i :: q) = eventAt? name child q := fun q => by
        rw [eventAt?_cons, eventAmong?, hchild, Option.bind_some]
      constructor
      · rintro ⟨hsome, hnone⟩
        refine ⟨child, rfl, hsome, fun q hq hne => ?_⟩
        rw [← hbelow]
        exact hnone (i :: q) ((List.prefix_cons_inj i).2 hq) fun h => hne (List.cons.inj h).2
      · rintro ⟨_, hsame, hsome, hnone⟩
        cases hsame
        refine ⟨hsome, fun q hq hne => ?_⟩
        cases q with
        | nil => exact hroot
        | cons j q =>
          obtain ⟨rfl, hqp⟩ := List.cons_prefix_cons.1 hq
          rw [hbelow]
          exact hnone q hqp fun h => hne (congrArg _ h)

theorem listed_of_event {event : Table Json} (h : eventOf? name node = some event) :
    Listed (Outermost name node) (eventAt? name node) [event] :=
  .root (outermost_of_event h) h

theorem listed_of_no_event (h : eventOf? name node = none)
    (hevents : EventsAmong name (children node.2) events) :
    Listed (Outermost name node) (eventAt? name node) events := by
  refine hevents.congr (fun p => (outermost_of_no_event h p).symm) fun p => ?_
  cases p with
  | nil => exact h.symm
  | cons i p => exact (eventAt?_cons i p).symm

theorem eventsAmong_nil : EventsAmong name [] [] := by
  apply Listed.nil
  intro p hp
  cases p with
  | nil => exact hp
  | cons i p =>
    obtain ⟨node, hnode, -⟩ := hp
    cases hnode

theorem eventsAmong_cons (h : Listed (Outermost name node) (eventAt? name node) events)
    (hrest : EventsAmong name nodes rest) : EventsAmong name (node :: nodes) (events ++ rest) := by
  refine h.append hrest id (fun p => ?_) (fun p => rfl) fun i p => rfl
  cases p with
  | nil =>
    apply iff_of_false id
    rintro (⟨q, -, hq⟩ | ⟨q, hq, hlater⟩)
    · cases hq
    · cases q with
      | nil => exact hq
      | cons i q => cases hlater
  | cons i p =>
    cases i with
    | zero =>
      constructor
      · rintro ⟨_, hnode, hp⟩
        cases hnode
        exact .inl ⟨p, hp, rfl⟩
      · rintro (⟨q, hq, hp⟩ | ⟨q, hq, hlater⟩)
        · cases hp
          exact ⟨node, rfl, hq⟩
        · cases q with
          | nil => exact hq.elim
          | cons i q => cases hlater
    | succ i =>
      constructor
      · rintro ⟨other, hother, hp⟩
        exact .inr ⟨i :: p, ⟨other, hother, hp⟩, rfl⟩
      · rintro (⟨q, -, hp⟩ | ⟨q, hq, hlater⟩)
        · cases hp
        · cases q with
          | nil => exact hq.elim
          | cons j q =>
            cases hlater
            exact hq

end Children

/-! ## The search -/

section Search

variable (name : Text)

mutual

theorem findEvents_among : ∀ v : Json, EventsAmong name (children v) (findEvents name v)
  | .obj members => findInMembers_among members
  | .arr items => findInItems_among items
  | .null | .bool _ | .int _ | .float _ | .str _ => eventsAmong_nil

theorem findInItems_among : ∀ items : List Json,
    EventsAmong name (children (.arr items)) (findInItems name items)
  | [] => eventsAmong_nil
  | item :: rest =>
    eventsAmong_cons (listed_of_no_event rfl (findEvents_among item)) (findInItems_among rest)

theorem findInMembers_among : ∀ members : List (Text × Json),
    EventsAmong name (children (.obj members)) (findInMembers name members)
  | [] => eventsAmong_nil
  | (key, .obj event) :: rest => by
    refine eventsAmong_cons ?_ (findInMembers_among rest)
    by_cases hkey : key = name
    · rw [if_pos hkey]
      exact listed_of_event (if_pos hkey)
    · rw [if_neg hkey]
      exact listed_of_no_event (if_neg hkey) (findInMembers_among event)
  | (_, .arr items) :: rest =>
    eventsAmong_cons (listed_of_no_event rfl (findInItems_among items)) (findInMembers_among rest)
  | (_, .null) :: rest | (_, .bool _) :: rest | (_, .int _) :: rest | (_, .float _) :: rest
  | (_, .str _) :: rest =>
    eventsAmong_cons (listed_of_no_event rfl eventsAmong_nil) (findInMembers_among rest)

end

/-- The search finds exactly the outermost events. -/
theorem findEvents_outermost (v : Json) : OutermostEvents name v (findEvents name v) :=
  listed_of_no_event rfl (findEvents_among name v)

theorem findInItems_append (xs ys : List Json) :
    findInItems name (xs ++ ys) = findInItems name xs ++ findInItems name ys := by
  induction xs with
  | nil => rfl
  | cons x xs ih => rw [List.cons_append, findInItems, findInItems, ih, List.append_assoc]

theorem findInMembers_cons (member : Text × Json) (rest : List (Text × Json)) :
    findInMembers name (member :: rest) =
      findInMembers name [member] ++ findInMembers name rest := by
  obtain ⟨key, value⟩ := member
  cases value <;> simp only [findInMembers, List.append_nil]

theorem findInMembers_append (ms ns : List (Text × Json)) :
    findInMembers name (ms ++ ns) = findInMembers name ms ++ findInMembers name ns := by
  induction ms with
  | nil => rfl
  | cons m ms ih =>
    rw [List.cons_append, findInMembers_cons, ih, ← List.append_assoc, ← findInMembers_cons]

/-- In a member that is no event the search goes on. -/
theorem findInMembers_of_no_event {key : Text} {value : Json}
    (h : eventOf? name (some key, value) = none) :
    findInMembers name [(key, value)] = findEvents name value := by
  cases value with
  | obj event =>
    have hkey : key ≠ name := fun hkey => Option.some_ne_none _ ((if_pos hkey).symm.trans h)
    rw [findInMembers, if_neg hkey]
    exact List.append_nil _
  | arr items => exact List.append_nil _
  | _ => rfl

/-- The search gives just the outermost events of a name, in document order; it goes on in a member
of that name that is no object, and in a list it takes one part after the other. -/
theorem findEvents_exact :
    (∀ v events, OutermostEvents name v events ↔ events = findEvents name v) ∧
    (∀ before value after, (∀ event, value ≠ .obj event) →
      findEvents name (.obj (before ++ (name, value) :: after)) =
        findEvents name (.obj before) ++ findEvents name value ++ findEvents name (.obj after)) ∧
    ∀ xs ys, findEvents name (.arr (xs ++ ys)) =
      findEvents name (.arr xs) ++ findEvents name (.arr ys) := by
  refine ⟨fun v events => ?_, fun before value after hvalue => ?_, findInItems_append name⟩
  · constructor
    · exact fun h => h.unique (findEvents_outermost name v)
    · rintro rfl
      exact findEvents_outermost name v
  · have hno : eventOf? name (some name, value) = none := by
      cases value with
      | obj event => exact absurd rfl (hvalue event)
      | _ => rfl
    show findInMembers name _ = findInMembers name before ++ _ ++ findInMembers name after
    rw [findInMembers_append, findInMembers_cons, findInMembers_of_no_event name hno,
      List.append_assoc]

/-- An event is found in a list of its own name. -/
theorem findEvents_exact_list :
    (∀ event, Json.arr [.obj [("ack", .obj [])]] ≠ .obj event) ∧
      findEvents "ack" (.obj [("ack", .arr [.obj [("ack", .obj [])]])]) = [[]] := by
  have hvalue : ∀ event, Json.arr [.obj [("ack", .obj [])]] ≠ .obj event := fun event h => by
    cases h
  refine ⟨hvalue, ?_⟩
  have hfound := (findEvents_exact "ack").2.1 [] (.arr [.obj [("ack", .obj [])]]) [] hvalue
  rw [List.nil_append] at hfound
  rw [hfound]
  rfl

end Search

end Hermes

end CrossChain
