import Registrar.Proofs.Registry.Coverage

/-!
# Faults on their way out

A failure is met by one frame after the other on its way to whoever asked: something is being
configured, something is being written, or a provider has failed while it used what another registry
has made. Each frame puts a layer around the fault. The text of a fault stands at the end of whatever
is made of it, and all of the faults on the way remain behind the last one. A frame does nothing to a
value, and asks for no context then.
-/

namespace Registrar

/-- What a frame says about a fault that comes through it. -/
inductive Layer where
  | configuration (context : String)
  | disk (context : String)
  | provider (key : String)

namespace Layer

def wrap : Layer → Fault → Fault
  | configuration context => .inConfiguration context
  | disk context => .onDisk context
  | provider key => .provider key

def isConfiguration : Layer → Bool
  | configuration _ => true
  | disk _ | provider _ => false

theorem message_wrap (l : Layer) (f : Fault) :
    ∃ front, (l.wrap f).message = front ++ f.message := by
  cases l with
  | configuration context =>
    refine ⟨"Configuration error: " ++ context ++ ": ", ?_⟩
    change "Configuration error: " ++ (context ++ ": " ++ f.message) = _
    rw [String.append_assoc, String.append_assoc, String.append_assoc]
  | disk context =>
    refine ⟨"I/O error: " ++ context ++ ": ", ?_⟩
    change "I/O error: " ++ (context ++ ": " ++ f.message) = _
    rw [String.append_assoc, String.append_assoc, String.append_assoc]
  | provider key => exact ⟨"Provider for '" ++ key ++ "' failed: ", rfl⟩

theorem sources_wrap (l : Layer) (f : Fault) : (l.wrap f).sources = f.message :: f.sources := by
  cases l <;> rfl

theorem isComposition_wrap (l : Layer) (f : Fault) :
    (l.wrap f).isComposition = l.isConfiguration := by
  cases l <;> rfl

end Layer

namespace Fault

/-- A fault with layers around it, of which the first is the nearest. -/
def within (original : Fault) (layers : List Layer) : Fault :=
  layers.foldl (fun f l => l.wrap f) original

variable (original : Fault) (layers : List Layer)

theorem within_append_singleton (l : Layer) :
    original.within (layers ++ [l]) = l.wrap (original.within layers) :=
  List.foldl_append ..

/-- The text of a fault stands at the end of whatever is made of it. -/
theorem message_within (i : Nat) : (original.within (layers.take i)).message.toList <:+
    (original.within layers).message.toList := by
  induction layers using List.reverseRecOn with
  | nil => rw [List.take_nil]
  | append_singleton layers l ih =>
    rcases Nat.lt_or_ge layers.length i with all | part
    · rw [List.take_of_length_le (by simpa using all)]
    · obtain ⟨front, longer⟩ := l.message_wrap (original.within layers)
      rw [List.take_append_of_le_length part, within_append_singleton, longer, String.toList_append]
      exact ih.trans (List.suffix_append _ _)

/-- Behind a fault with layers around it are those with fewer of them, and then what was behind the
original. -/
theorem sources_within : (original.within layers).sources =
    (List.range layers.length).reverse.map (fun i => (original.within (layers.take i)).message) ++
      original.sources := by
  induction layers using List.reverseRecOn with
  | nil => rfl
  | append_singleton layers l ih =>
    have earlier : (List.range layers.length).reverse.map
          (fun i => (original.within ((layers ++ [l]).take i)).message) =
        (List.range layers.length).reverse.map
          (fun i => (original.within (layers.take i)).message) := by
      apply List.map_congr_left
      intro i mem
      have less : i < layers.length := by simpa using mem
      rw [List.take_append_of_le_length less.le]
    rw [within_append_singleton, Layer.sources_wrap, List.length_append, List.length_singleton,
      List.range_succ, List.reverse_append, List.reverse_singleton, List.singleton_append,
      List.map_cons, earlier, List.take_left', ih, List.cons_append]
    rfl

end Fault

/-- What a result passes through. The context of a frame may have to be worked out first, which has
effects of its own. A registry has its instances made by providers that use what comes from further
inside, each in its own way; the one that serves the key passes it on. -/
inductive Frame (m : Type → Type) (α : Type) : Type 1 where
  | configuration (context : String)
  | configurationBy (context : m String)
  | disk (context : String)
  | creation {K P : Type} [DecidableEq K] [Key K] (registry : Registry K P) (key : K)
      (provide : Except Fault α → P → Except Fault α) (b : Binding K P)
      (found : registry.binding key = .ok b) (passes : ∀ result, provide result b.provider = result)

namespace Frame

variable {m : Type → Type} {α : Type} [Monad m]

def apply (result : Except Fault α) : Frame m α → m (Except Fault α)
  | configuration context => pure (configContext context result)
  | configurationBy context => configContextBy context result
  | disk context => pure (diskContext context result)
  | creation registry key provide _ _ _ => pure (registry.create (provide result) key)

/-- The nearest frame is the first. -/
def run (frames : List (Frame m α)) (result : Except Fault α) : m (Except Fault α) :=
  frames.foldlM apply result

/-- The layer that a fault is given. -/
def layer : Frame m α → m Layer
  | configuration context => pure (.configuration context)
  | configurationBy context => return .configuration (← context)
  | disk context => pure (.disk context)
  | creation _ _ _ b _ _ => pure (.provider (Key.label b.key))

variable (frame : Frame m α)

theorem apply_ok (value : α) : frame.apply (.ok value) = pure (.ok value) := by
  cases frame with
  | creation registry key provide b found passes =>
    rw [apply, Registry.create_of_found found, passes]
    rfl
  | _ => rfl

variable [LawfulMonad m]

theorem apply_error (fault : Fault) :
    frame.apply (.error fault) = (fun l : Layer => .error (l.wrap fault)) <$> frame.layer := by
  cases frame with
  | configurationBy context =>
    rw [apply, configContextBy, layer, map_bind]
    simp only [map_pure]
    rfl
  | creation registry key provide b found passes =>
    rw [apply, Registry.create_of_found found, passes, layer, map_pure]
    rfl
  | _ =>
    rw [apply, layer, map_pure]
    rfl

theorem run_ok (frames : List (Frame m α)) (value : α) :
    run frames (.ok value) = pure (.ok value) := by
  induction frames with
  | nil => rfl
  | cons frame frames ih =>
    rw [run, List.foldlM_cons, apply_ok, pure_bind]
    exact ih

theorem run_error (frames : List (Frame m α)) (original : Fault) : run frames (.error original) =
    (fun layers => .error (original.within layers)) <$> frames.mapM layer := by
  induction frames generalizing original with
  | nil =>
    rw [List.mapM_nil, map_pure]
    rfl
  | cons frame frames ih =>
    rw [run, List.foldlM_cons, apply_error, List.mapM_cons, map_bind, seq_bind_eq]
    apply bind_congr
    intro l
    refine (ih (l.wrap original)).trans ?_
    simp only [map_bind, map_pure]
    exact map_eq_pure_bind _ _

/-- A value comes through any frames as it is, and no context is worked out for it, whatever working
it out would do. A fault is given one layer by each frame, the nearest first. The text of the fault,
and of each that is made of it on the way, stands at the end of the text of the last one; behind the
last one are those made on the way, nearest first, then the fault itself and what was behind it
before. Whether the last one is a fault of composition depends on the outermost layer alone. -/
theorem wrapping_keeps_causes (frames : List (Frame m α)) :
    (∀ value, run frames (.ok value) = pure (.ok value)) ∧
    (∀ original, run frames (.error original) =
      (fun layers => .error (original.within layers)) <$> frames.mapM layer) ∧
    ∀ (original : Fault) (layers : List Layer),
      (∀ i, (original.within (layers.take i)).message.toList <:+
        (original.within layers).message.toList) ∧
      (original.within layers).sources = (List.range layers.length).reverse.map
        (fun i => (original.within (layers.take i)).message) ++ original.sources ∧
      ∀ outermost, (original.within (layers ++ [outermost])).isComposition =
        outermost.isConfiguration := by
  refine ⟨run_ok frames, run_error frames, fun original layers => ?_⟩
  refine ⟨original.message_within layers, original.sources_within layers, fun outermost => ?_⟩
  rw [Fault.within_append_singleton, Layer.isComposition_wrap]

/-- Two registries, of which the second is asked for an alias. -/
def lamps : Registry String Unit := (Builder.new.run [.register "lamp" ()]).1.build.1

def rooms : Registry String Bool :=
  (Builder.new.run [.registerServing "room" ["hall"] true, .register "yard" false]).1.build.1

/-- A room makes use of a lamp, a yard does not. -/
def lit (result : Except Fault Nat) (indoors : Bool) : Except Fault Nat :=
  if indoors then result else .ok 0

/-- The second context is counted when it is worked out. -/
def visit : List (Frame (StateM Nat) Nat) :=
  [.creation lamps "lamp" (fun result _ => result) (.new "lamp" ()) rfl fun _ => rfl,
    .configurationBy (do modify (· + 1); return "Wiring"),
    .creation rooms "hall" lit ((Binding.new "room" true).withAliases ["hall"]) rfl fun _ => rfl,
    .disk "Reporting"]

theorem visit_keeps_causes : LawfulMonad (StateM Nat) ∧
    (∀ value, (run visit (.ok value)).run 0 = (.ok value, 0)) ∧
    ∃ result, (run visit (.error (.foreign "no bulb" none))).run 0 = (.error result, 1) ∧
      result.isComposition = false ∧
      result.sources =
        ["Provider for 'room' failed: Configuration error: Wiring: Provider for 'lamp' failed: no bulb",
          "Configuration error: Wiring: Provider for 'lamp' failed: no bulb",
          "Provider for 'lamp' failed: no bulb", "no bulb"] := by
  obtain ⟨values, faults, kept⟩ := wrapping_keeps_causes visit
  refine ⟨inferInstance, fun value => ?_, ?_⟩
  · rw [values]
    rfl
  · have sources := (kept (.foreign "no bulb" none)
      [.provider "lamp", .configuration "Wiring", .provider "room", .disk "Reporting"]).2.1
    have outermost := (kept (.foreign "no bulb" none)
      [.provider "lamp", .configuration "Wiring", .provider "room"]).2.2 (.disk "Reporting")
    refine ⟨_, by rw [faults]; rfl, outermost, sources.trans ?_⟩
    decide

end Frame

end Registrar
