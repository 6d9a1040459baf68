import LineStore.Proofs.Opening
import Mathlib.Data.Nat.Find

/-!
How a connection is opened, told by how the host answers and not by the steps of opening. The addresses
are tried in their order until one accepts (`attempts`), and the socket is given its options up to the
first that is refused (`Outfit`). Main statement: these are the ways that opening may go, and it goes the
one that the answers of the host single out (`Connection.established_exactly`); every limit that is set
on the way is the timeout of the configuration, and a timeout of zero is never set.
-/
namespace LineStore

/-! ## Trying addresses -/

/-- What is logged of an attempt: its failure. -/
def Event.failure? : Event → Option LogRecord
  | .connect peer _ (some cause) => some (.connectFailed peer cause)
  | _ => none

/-- The limit that an event sets on a socket or on an attempt, if it sets one. -/
def Event.limit? : Event → Option (Option Duration)
  | .connect _ limit _ | .readTimeout limit _ | .writeTimeout limit _ => some limit
  | _ => none

namespace Connection

/-- How the attempt at a place among the addresses fails, if it does. -/
def failureAt (outcomes : List (Option IoError)) (i : Nat) : Option IoError := outcomes[i]?.join

/-- The attempts at all of some addresses, in their order. -/
def attempts (limit : Option Duration) (peers : List Address) (outcomes : List (Option IoError)) : List Event :=
  peers.mapIdx fun i peer => .connect peer limit (failureAt outcomes i)

/-- Some attempts and what is logged of them. -/
def tried (events : List Event) : Trace := ⟨events, events.filterMap Event.failure?⟩

theorem failureAt_succ (outcomes : List (Option IoError)) (i : Nat) :
    failureAt outcomes (i + 1) = failureAt outcomes.tail i := by
  rw [failureAt, failureAt, List.getElem?_tail]

theorem attempts_cons (limit : Option Duration) (peer : Address) (others : List Address)
    (outcomes : List (Option IoError)) :
    attempts limit (peer :: others) outcomes =
      .connect peer limit (failureAt outcomes 0) :: attempts limit others outcomes.tail := by
  simp only [attempts, List.mapIdx_cons, failureAt_succ]

theorem tried_cons (peer : Address) (limit : Option Duration) (cause : IoError) (events : List Event) :
    tried (.connect peer limit (some cause) :: events) =
      ⟨[.connect peer limit (some cause)], [.connectFailed peer cause]⟩ ++ tried events := rfl

theorem failureAt_zero (outcomes : List (Option IoError)) : outcomes.head?.join = failureAt outcomes 0 := by
  rw [failureAt, List.head?_eq_getElem?]

/-- The first attempt that succeeds is the last one made. -/
theorem dial_of_first {limit : Option Duration} {peers : List Address} {outcomes : List (Option IoError)} {i : Nat}
    {peer : Address} (here : peers[i]? = some peer) (accepted : failureAt outcomes i = none)
    (first : ∀ j < i, failureAt outcomes j ≠ none) :
    dial limit peers outcomes = (.ok peer, tried ((attempts limit peers outcomes).take (i + 1))) := by
  induction i generalizing peers outcomes with
  | zero =>
    cases peers with
    | nil => simp at here
    | cons other others =>
      obtain rfl : other = peer := by simpa using here
      rw [dial, failureAt_zero, accepted, attempts_cons, accepted]
      rfl
  | succ i ih =>
    cases peers with
    | nil => simp at here
    | cons other others =>
      obtain ⟨cause, failed⟩ := Option.ne_none_iff_exists'.mp (first 0 (Nat.succ_pos i))
      have later : dial limit others outcomes.tail = (.ok peer, tried ((attempts limit others outcomes.tail).take (i + 1))) := by
        refine ih here ((failureAt_succ outcomes i).symm.trans accepted) fun j before => ?_
        rw [← failureAt_succ]
        exact first (j + 1) (Nat.succ_lt_succ before)
      rw [dial, failureAt_zero, failed, attempts_cons, failed, List.take_succ_cons, tried_cons, later]

/-- Where no attempt succeeds, all of them are made, and the failure is that of the last. -/
theorem dial_of_none {limit : Option Duration} {peers : List Address} {outcomes : List (Option IoError)} {cause : IoError}
    (present : peers ≠ []) (failed : ∀ i < peers.length, failureAt outcomes i ≠ none)
    (last : failureAt outcomes (peers.length - 1) = some cause) :
    dial limit peers outcomes = (.error cause, tried (attempts limit peers outcomes)) := by
  induction peers generalizing outcomes with
  | nil => exact absurd rfl present
  | cons peer others ih =>
    obtain ⟨first, refused⟩ := Option.ne_none_iff_exists'.mp (failed 0 (Nat.succ_pos _))
    rw [dial, failureAt_zero, refused, attempts_cons, refused, tried_cons]
    -- The last failure is that of this address only if there is no other one behind it.
    cases others with
    | nil =>
      obtain rfl : first = cause := Option.some.inj (refused.symm.trans last)
      rfl
    | cons next others =>
      have later := @ih outcomes.tail (List.cons_ne_nil next others)
        (fun j inside => by
          rw [← failureAt_succ]
          exact failed (j + 1) (Nat.succ_lt_succ inside))
        ((failureAt_succ outcomes others.length).symm.trans last)
      rw [later]

/-! ## Options -/

/-- The options of a new socket, set one after another up to the first that is refused, and the fault if
    one is. -/
inductive Outfit (limit : Option Duration) (link : Link) : Option Fault → List Event → Prop
  | unread {cause : IoError} (refused : link.readTimeout = some cause) :
      Outfit limit link (some (.timeoutNotSet cause)) [.readTimeout limit (some cause)]
  | unwritten {cause : IoError} (readable : link.readTimeout = none) (refused : link.writeTimeout = some cause) :
      Outfit limit link (some (.timeoutNotSet cause)) [.readTimeout limit none, .writeTimeout limit (some cause)]
  | delayed {cause : IoError} (readable : link.readTimeout = none) (writable : link.writeTimeout = none)
      (refused : link.noDelay = some cause) :
      Outfit limit link (some (.notConfigured cause))
        [.readTimeout limit none, .writeTimeout limit none, .noDelay (some cause)]
  | whole (readable : link.readTimeout = none) (writable : link.writeTimeout = none) (prompt : link.noDelay = none) :
      Outfit limit link none [.readTimeout limit none, .writeTimeout limit none, .noDelay none]

theorem Outfit.configure_eq {limit : Option Duration} {link : Link} {fault? : Option Fault} {set : List Event}
    (outfit : Outfit limit link fault? set) : configure limit link = (fault?, set) := by
  cases outfit with
  | unread refused => simp [configure, refused]
  | unwritten readable refused => simp [configure, readable, refused]
  | delayed readable writable refused => simp [configure, readable, writable, refused]
  | whole readable writable prompt => simp [configure, readable, writable, prompt]

theorem exists_outfit (limit : Option Duration) (link : Link) : ∃ fault? set, Outfit limit link fault? set := by
  cases readable : link.readTimeout with
  | some cause => exact ⟨_, _, .unread readable⟩
  | none =>
    cases writable : link.writeTimeout with
    | some cause => exact ⟨_, _, .unwritten readable writable⟩
    | none =>
      cases prompt : link.noDelay with
      | some cause => exact ⟨_, _, .delayed readable writable prompt⟩
      | none => exact ⟨_, _, .whole readable writable prompt⟩

end Connection

/-! ## Opening -/

/-- The limit on every operation: the timeout, unless it has no length. -/
def Config.limit (config : Config) : Option Duration :=
  if config.timeout.toNanoseconds = 0 then none else some config.timeout

theorem Duration.toNanoseconds_eq_zero_iff {span : Duration} : span.toNanoseconds = 0 ↔ span = .zero := by
  constructor
  · intro nothing
    obtain ⟨seconds, nanoseconds⟩ := span
    simp only [toNanoseconds] at nothing
    have whole : seconds = 0 := UInt64.toNat_inj.mp (by show seconds.toNat = 0; omega)
    have part : nanoseconds = 0 := Fin.ext (by show nanoseconds.val = 0; omega)
    rw [whole, part]
    rfl
  · rintro rfl
    rfl

theorem Config.socketTimeout_eq_limit (config : Config) : config.socketTimeout = config.limit := by
  unfold socketTimeout limit
  simp only [Duration.toNanoseconds_eq_zero_iff]

namespace Connection

/-- How opening a connection goes, told by the answers of the host. -/
inductive Establishment (config : Config) (link : Link) : Except Fault Connection × Trace → Prop
  /-- The host has no address. -/
  | unresolved (barren : ∀ ips, link.addresses = .ok ips → ips = []) :
      Establishment config link (.error (.unresolved config.host), asking config link)
  /-- No address accepts: all are tried, each once, and the last of them gives the cause. -/
  | unreachable {ips : List String} {cause : IoError} (resolved : link.addresses = .ok ips) (present : ips ≠ [])
      (failed : ∀ i < ips.length, failureAt link.connects i ≠ none)
      (last : failureAt link.connects (ips.length - 1) = some cause) :
      Establishment config link
        (.error (.unreachable config.host config.port cause),
          asking config link ++ tried (attempts config.limit (peers config ips) link.connects))
  /-- The address at a place is the first that accepts, and an option of the socket is refused: the socket is
      closed, and no other address is tried. -/
  | refused {ips : List String} {ip : String} {i : Nat} {fault : Fault} {set : List Event}
      (resolved : link.addresses = .ok ips) (here : ips[i]? = some ip) (accepted : failureAt link.connects i = none)
      (first : ∀ j < i, failureAt link.connects j ≠ none) (outfit : Outfit config.limit link (some fault) set) :
      Establishment config link
        (.error fault,
          asking config link ++ tried ((attempts config.limit (peers config ips) link.connects).take (i + 1)) ++
            ⟨set ++ [.close], []⟩)
  /-- The address at a place is the first that accepts, and the socket is given all its options: it is kept. -/
  | opened {ips : List String} {ip : String} {i : Nat} {set : List Event}
      (resolved : link.addresses = .ok ips) (here : ips[i]? = some ip) (accepted : failureAt link.connects i = none)
      (first : ∀ j < i, failureAt link.connects j ≠ none) (outfit : Outfit config.limit link none set) :
      Establishment config link
        (.ok { peer := ⟨ip, config.port⟩, writes := link.writes, reads := link.reads, pending := [] },
          asking config link ++ tried ((attempts config.limit (peers config ips) link.connects).take (i + 1)) ++
            ⟨set, [.connected ⟨ip, config.port⟩]⟩)

variable {config : Config} {link : Link}

/-- The first address of the host that accepts is the one that is dialled. -/
theorem dial_of_first_ip (config : Config) {ips : List String} {ip : String} {i : Nat} (here : ips[i]? = some ip)
    (accepted : failureAt link.connects i = none) (first : ∀ j < i, failureAt link.connects j ≠ none) :
    dial config.limit (ips.map (⟨·, config.port⟩)) link.connects =
      (.ok ⟨ip, config.port⟩, tried ((attempts config.limit (peers config ips) link.connects).take (i + 1))) :=
  dial_of_first (by simp [here]) accepted first

theorem Establishment.establish_eq {result : Except Fault Connection × Trace}
    (way : Establishment config link result) : establish config link = result := by
  unfold establish
  cases way with
  | unresolved barren =>
    cases resolved : link.addresses with
    | error _ => rw [asking, resolved]
    | ok ips =>
      obtain rfl := barren ips resolved
      rw [asking, resolved]
      rfl
  | @unreachable ips cause resolved present failed last =>
    have dialled : dial config.limit (ips.map (⟨·, config.port⟩)) link.connects =
        (.error cause, tried (attempts config.limit (peers config ips) link.connects)) :=
      dial_of_none (by simpa using present) (by simpa using failed) (by simpa using last)
    simp only [asking, resolved, config.socketTimeout_eq_limit, dialled]
  | refused resolved here accepted first outfit =>
    have dialled := dial_of_first_ip config here accepted first
    simp only [asking, resolved, dialled, config.socketTimeout_eq_limit, outfit.configure_eq]
  | opened resolved here accepted first outfit =>
    have dialled := dial_of_first_ip config here accepted first
    simp only [asking, resolved, dialled, config.socketTimeout_eq_limit, outfit.configure_eq]

theorem exists_establishment (config : Config) (link : Link) : ∃ result, Establishment config link result := by
  cases resolved : link.addresses with
  | error _ => exact ⟨_, .unresolved (by simp [resolved])⟩
  | ok ips =>
    by_cases accepts : ∃ i, i < ips.length ∧ failureAt link.connects i = none
    · obtain ⟨inside, accepted⟩ := Nat.find_spec accepts
      have first : ∀ j < Nat.find accepts, failureAt link.connects j ≠ none := fun j before success =>
        Nat.find_min accepts before ⟨Nat.lt_trans before inside, success⟩
      obtain ⟨fault?, set, outfit⟩ := exists_outfit config.limit link
      have here := List.getElem?_eq_getElem inside
      cases fault? with
      | some fault => exact ⟨_, .refused resolved here accepted first outfit⟩
      | none => exact ⟨_, .opened resolved here accepted first outfit⟩
    · have failed : ∀ i < ips.length, failureAt link.connects i ≠ none := fun i inside success =>
        accepts ⟨i, inside, success⟩
      by_cases present : ips = []
      · exact ⟨_, .unresolved (by simp [resolved, present])⟩
      · have last := failed (ips.length - 1) (by have := List.length_pos_iff.mpr present; omega)
        obtain ⟨cause, refused⟩ := Option.ne_none_iff_exists'.mp last
        exact ⟨_, .unreachable resolved present failed refused⟩

/-! ## Limits -/

theorem limit_of_attempts {limit : Option Duration} {peers : List Address} {outcomes : List (Option IoError)} :
    ∀ event ∈ attempts limit peers outcomes, event.limit? = some limit := by
  intro event member
  obtain ⟨i, inside, rfl⟩ := List.mem_mapIdx.mp member
  rfl

theorem Outfit.limits {limit : Option Duration} {fault? : Option Fault} {set : List Event}
    (outfit : Outfit limit link fault? set) : ∀ event ∈ set, ∀ other, event.limit? = some other → other = limit := by
  cases outfit <;> simp [Event.limit?, eq_comm]

/-- Every limit that is set on the way is the one that the configuration asks for. -/
theorem Establishment.limits {result : Except Fault Connection × Trace} (way : Establishment config link result) :
    ∀ event ∈ result.2.events, ∀ limit, event.limit? = some limit → limit = config.limit := by
  have asked : ∀ event ∈ (asking config link).events, ∀ limit, event.limit? = some limit → limit = config.limit := by
    simp [asking, Trace.ofEvent, Event.limit?]
  have tries : ∀ ips, ∀ event ∈ attempts config.limit (peers config ips) link.connects,
      ∀ limit, event.limit? = some limit → limit = config.limit := fun ips event member limit sets =>
    Option.some.inj (sets.symm.trans (limit_of_attempts event member))
  have first := fun ips i => List.forall_mem_append.mpr
    ⟨asked, fun event member => tries ips event (List.mem_of_mem_take (i := i) member)⟩
  cases way with
  | unresolved barren => exact asked
  | unreachable resolved present failed last => exact List.forall_mem_append.mpr ⟨asked, tries _⟩
  | refused resolved here accepted before outfit =>
    have closing : ∀ event ∈ [Event.close], ∀ limit, event.limit? = some limit → limit = config.limit := by
      simp [Event.limit?]
    exact List.forall_mem_append.mpr ⟨first _ _, List.forall_mem_append.mpr ⟨outfit.limits, closing⟩⟩
  | opened resolved here accepted before outfit => exact List.forall_mem_append.mpr ⟨first _ _, outfit.limits⟩

/-- Opening goes the one way that the answers of the host single out, and every limit set on it is the timeout,
    which has some length, or there is none. -/
theorem established_exactly (config : Config) (link : Link) :
    (∀ result, establish config link = result ↔ Establishment config link result) ∧
      ∀ event ∈ (establish config link).2.events, ∀ limit, event.limit? = some limit →
        limit = (if config.timeout.toNanoseconds = 0 then none else some config.timeout) ∧
          ∀ span, limit = some span → 0 < span.toNanoseconds := by
  obtain ⟨result, way⟩ := exists_establishment config link
  have goes := way.establish_eq
  refine ⟨fun other => ⟨?_, Establishment.establish_eq⟩, ?_⟩
  · rintro rfl
    rw [goes]
    exact way
  · rw [goes]
    intro event member limit sets
    obtain rfl := way.limits event member limit sets
    refine ⟨rfl, fun span given => ?_⟩
    obtain ⟨limited, rfl⟩ : ¬ config.timeout.toNanoseconds = 0 ∧ config.timeout = span := by simpa [Config.limit] using given
    exact Nat.pos_of_ne_zero limited

end Connection
end LineStore
