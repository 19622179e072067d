import NameHunt.Proofs.Settings.Layers
import NameHunt.Settings.Discovery

/-!
# Settings files put together

Two files put together say what the upper one says, and what the lower one says where the upper one
says nothing. To take them one after the other comes to the same, because a later value leaves
nothing of an earlier one: whatever is valid in a file has a value.

* `FileSettings.written`: what a file writes for a setting.
* `FileSettings.written_merge`: what two files write.
* `FileSettings.valid_iff`: a file without a fault.
* `FileSettings.apply_merge`: two files at once are one after the other.
* `Places.found?`, `Places.discover_eq`: the files that are found.
* `Places.merged_in_order`: the files that are found, one after the other.
-/

namespace NameHunt

section MergeWith

variable {α : Type} {merge : α → α → α}

theorem mergeWith_none_left (upper : Option α) : mergeWith merge none upper = upper := by
  cases upper <;> rfl

theorem mergeWith_none_right (lower : Option α) : mergeWith merge lower none = lower := by
  cases lower <;> rfl

theorem mergeWith_assoc (h : ∀ a b c, merge (merge a b) c = merge a (merge b c))
    (a b c : Option α) :
    mergeWith merge (mergeWith merge a b) c = mergeWith merge a (mergeWith merge b c) := by
  cases a with
  | none => rw [mergeWith_none_left, mergeWith_none_left]
  | some a =>
    cases b with
    | none => rw [mergeWith_none_right, mergeWith_none_left]
    | some b =>
      cases c with
      | none => rw [mergeWith_none_right, mergeWith_none_right]
      | some c => exact congrArg some (h a b c)

theorem mergeWith_self (h : ∀ a, merge a a = a) (a : Option α) : mergeWith merge a a = a := by
  cases a with
  | none => rfl
  | some a => exact congrArg some (h a)

/-- A field of two values put together is the upper one, or else the lower one. -/
theorem bind_mergeWith {β : Type} {field : α → Option β}
    (h : ∀ a b, field (merge a b) = (field b).or (field a)) (lower upper : Option α) :
    (mergeWith merge lower upper).bind field = (upper.bind field).or (lower.bind field) := by
  cases lower with
  | none => rw [mergeWith_none_left, Option.bind_none, Option.or_none]
  | some a =>
    cases upper with
    | none => rfl
    | some b => exact h a b

end MergeWith

theorem DefaultsSection.merge_assoc (a b c : DefaultsSection) :
    (a.merge b).merge c = a.merge (b.merge c) := by
  simp [merge, Option.or_assoc]

theorem DefaultsSection.merge_self (a : DefaultsSection) : a.merge a = a := by
  simp [merge]

theorem CacheSection.merge_assoc (a b c : CacheSection) :
    (a.merge b).merge c = a.merge (b.merge c) := by
  simp [merge, Option.or_assoc]

theorem CacheSection.merge_self (a : CacheSection) : a.merge a = a := by
  simp [merge]

namespace FileSettings

theorem merge_assoc (a b c : FileSettings) : (a.merge b).merge c = a.merge (b.merge c) := by
  simp only [merge, mergeWith_assoc DefaultsSection.merge_assoc,
    mergeWith_assoc CacheSection.merge_assoc]

theorem merge_self (a : FileSettings) : a.merge a = a := by
  simp only [merge, mergeWith_self DefaultsSection.merge_self,
    mergeWith_self CacheSection.merge_self]

theorem empty_merge (a : FileSettings) : merge {} a = a := by
  simp only [merge, mergeWith_none_left]

theorem merge_empty (a : FileSettings) : a.merge {} = a := by
  simp only [merge, mergeWith_none_right]

/-! ### What files write -/

/-- What a file writes for a setting. -/
def written (file : FileSettings) : (k : Setting) → Option k.Written
  | .concurrency => file.defaults.bind (·.concurrency)
  | .rate => file.defaults.bind (·.rate)
  | .timeout => file.defaults.bind (·.timeout)
  | .retries => file.defaults.bind (·.retries)
  | .extensions => file.defaults.bind (·.extensions)
  | .cachePath => file.cache.bind (·.path)
  | .cacheCapacity => file.cache.bind (·.capacity)
  | .checkpointEvery => file.cache.bind (·.checkpointEvery)

theorem written_layer (file : FileSettings) (k : Setting) :
    file.layer.written k = file.written k := by
  obtain ⟨defaults, cache⟩ := file
  cases defaults <;> cases cache <;> cases k <;> rfl

/-- Two files write what the upper one writes, or else the lower one. -/
theorem written_merge (lower upper : FileSettings) (k : Setting) :
    (lower.merge upper).written k = (upper.written k).or (lower.written k) := by
  cases k <;> exact bind_mergeWith (fun _ _ => Option.orElse_eq_or) _ _

/-- A file in which every value is valid. -/
def Valid (file : FileSettings) : Prop :=
  ∀ k, ∀ written ∈ file.written k, k.Valid written

end FileSettings

theorem DefaultsSection.fault?_eq_none_iff {part : DefaultsSection} :
    part.fault? = none ↔
      (∀ n ∈ part.concurrency, Setting.concurrency.Valid n) ∧
      (∀ n ∈ part.rate, Setting.rate.Valid n) ∧
      (∀ words ∈ part.timeout, Setting.timeout.Valid words) ∧
      ∀ list ∈ part.extensions, Setting.extensions.Valid list := by
  rw [← Setting.any_concurrency_eq_false, ← Setting.any_rate_eq_false,
    ← Setting.filter_timeout_eq_none, ← Setting.bind_listFault?_eq_none, fault?,
    Setting.ite_some_eq_none_iff, Setting.ite_some_eq_none_iff, Bool.not_eq_true, Bool.not_eq_true]
  refine and_congr_right fun _ => and_congr_right fun _ => ?_
  split
  · rename_i hwords
    rw [hwords]
    simp
  · rename_i hnone
    rw [hnone, Option.map_eq_none_iff]
    simp

theorem CacheSection.fault?_eq_none_iff {part : CacheSection} :
    part.fault? = none ↔
      (∀ n ∈ part.capacity, Setting.cacheCapacity.Valid n) ∧
      ∀ n ∈ part.checkpointEvery, Setting.checkpointEvery.Valid n := by
  rw [fault?, Setting.ite_some_eq_none_iff, Setting.ite_some_eq_none_iff]
  simp only [Setting.Valid, ← Setting.ne_some_zero_iff, and_true, ne_eq]

namespace FileSettings

/-- What holds of a field of a section holds of it in every section that is there. -/
theorem forall_bind_iff {α β : Type} {part : Option α} {field : α → Option β} {p : β → Prop} :
    (∀ x ∈ part.bind field, p x) ↔ ∀ a ∈ part, ∀ x ∈ field a, p x := by
  cases part <;> simp

/-- The faults of a file are its values that are not valid. -/
theorem valid_iff {file : FileSettings} : file.fault? = none ↔ file.Valid := by
  rw [fault?, Option.map_eq_none_iff, Option.orElse_eq_none, Option.bind_eq_none_iff,
    Option.bind_eq_none_iff]
  simp only [DefaultsSection.fault?_eq_none_iff, CacheSection.fault?_eq_none_iff]
  constructor
  · rintro ⟨hdefaults, hcache⟩ k
    cases k with
    | retries | cachePath => exact fun _ _ => trivial
    | concurrency => exact forall_bind_iff.2 fun part hpart => (hdefaults part hpart).1
    | rate => exact forall_bind_iff.2 fun part hpart => (hdefaults part hpart).2.1
    | timeout => exact forall_bind_iff.2 fun part hpart => (hdefaults part hpart).2.2.1
    | extensions => exact forall_bind_iff.2 fun part hpart => (hdefaults part hpart).2.2.2
    | cacheCapacity => exact forall_bind_iff.2 fun part hpart => (hcache part hpart).1
    | checkpointEvery => exact forall_bind_iff.2 fun part hpart => (hcache part hpart).2
  · intro h
    refine ⟨fun part hpart => ⟨?_, ?_, ?_, ?_⟩, fun part hpart => ⟨?_, ?_⟩⟩
    · exact forall_bind_iff.1 (h .concurrency) part hpart
    · exact forall_bind_iff.1 (h .rate) part hpart
    · exact forall_bind_iff.1 (h .timeout) part hpart
    · exact forall_bind_iff.1 (h .extensions) part hpart
    · exact forall_bind_iff.1 (h .cacheCapacity) part hpart
    · exact forall_bind_iff.1 (h .checkpointEvery) part hpart

/-! ### One after the other -/

/-- What is valid in both files is valid in the two together. -/
theorem Valid.merge {lower upper : FileSettings} (hlower : lower.Valid) (hupper : upper.Valid) :
    (lower.merge upper).Valid := by
  intro k x hx
  rw [written_merge] at hx
  obtain hx | ⟨-, hx⟩ := Option.or_eq_some_iff.1 hx
  · exact hupper k x hx
  · exact hlower k x hx

theorem get_apply_layer (file : FileSettings) (s : Settings) (k : Setting) :
    (file.layer.apply s).get k = ((file.written k).bind k.value?).getD (s.get k) := by
  rw [Layer.get_apply, Layer.value?, written_layer]

/-- Two files at once are one after the other. What the upper one writes has a value, so that
nothing is left of what the lower one writes for the same setting. -/
theorem apply_merge {lower upper : FileSettings} (hupper : upper.Valid) (s : Settings) :
    (lower.merge upper).layer.apply s = upper.layer.apply (lower.layer.apply s) := by
  refine Settings.ext_get fun k => ?_
  rw [get_apply_layer, get_apply_layer, get_apply_layer, written_merge]
  exact Setting.getD_value?_or (hupper k)

theorem valid_empty : Valid {} := by
  rintro (_ | _) x hx <;> cases hx

/-- Any number of files at once are one after the other. -/
theorem apply_foldl_merge {files : List FileSettings} (hfiles : ∀ file ∈ files, file.Valid)
    (first : FileSettings) (s : Settings) :
    (files.foldl merge first).layer.apply s =
      files.foldl (fun s file => file.layer.apply s) (first.layer.apply s) := by
  induction files generalizing first with
  | nil => rfl
  | cons file rest ih =>
    have hfile := hfiles file List.mem_cons_self
    have hrest : ∀ file ∈ rest, file.Valid := fun f hf => hfiles f (List.mem_cons_of_mem file hf)
    rw [List.foldl_cons, List.foldl_cons, ih hrest, apply_merge hfile]

theorem valid_foldl_merge {files : List FileSettings} (hfiles : ∀ file ∈ files, file.Valid)
    {first : FileSettings} (hfirst : first.Valid) : (files.foldl merge first).Valid := by
  induction files generalizing first with
  | nil => exact hfirst
  | cons file rest ih =>
    exact ih (fun f hf => hfiles f (List.mem_cons_of_mem file hf))
      (hfirst.merge (hfiles file List.mem_cons_self))

/-- A file that was loaded has no fault. -/
theorem valid_of_load {fs : FileSystem} {path : String} {file : FileSettings}
    (h : load fs path = .ok file) : file.Valid := by
  rw [load] at h
  split at h
  · split at h
    · rw [ofText] at h
      split at h
      · cases h
      · rename_i hread
        split at h
        · cases h
        · rename_i hfault
          obtain rfl := Except.ok.inj h
          exact valid_iff.1 hfault
    · cases h
  · cases h

end FileSettings

/-! ### The files that are found -/

namespace Places

/-- The settings that a place gives: those of the first file that is there, if it can be loaded. -/
def found? (fs : FileSystem) (paths : List String) : Option FileSettings :=
  (paths.find? fs.contains).bind fun path => (FileSettings.load fs path).toOption

theorem valid_of_found? {fs : FileSystem} {paths : List String} {file : FileSettings}
    (h : found? fs paths = some file) : file.Valid := by
  obtain ⟨path, -, hload⟩ := Option.bind_eq_some_iff.1 h
  cases hresult : FileSettings.load fs path with
  | error error =>
    rw [hresult] at hload
    cases hload
  | ok loaded =>
    rw [hresult] at hload
    obtain rfl := Option.some.inj hload
    exact FileSettings.valid_of_load hresult

/-- A place gives nothing if no file is there, or if the first one that is there cannot be loaded.
No other file is tried in its stead. -/
theorem found?_eq_none_iff {fs : FileSystem} {paths : List String} :
    found? fs paths = none ↔
      (∀ path ∈ paths, fs.contains path = false) ∨
      ∃ path error, paths.find? fs.contains = some path ∧
        FileSettings.load fs path = .error error := by
  unfold found?
  cases hfind : paths.find? fs.contains with
  | none => simpa using List.find?_eq_none.1 hfind
  | some path =>
    have hthere : ¬ ∀ path ∈ paths, fs.contains path = false := fun h =>
      Bool.false_ne_true ((h path (List.mem_of_find?_eq_some hfind)).symm.trans
        (List.find?_some hfind))
    rw [Option.bind_some, or_iff_right hthere]
    cases hload : FileSettings.load fs path with
    | error error => exact iff_of_true rfl ⟨path, error, rfl, hload⟩
    | ok file => simp [hload, Except.toOption]

theorem discover_eq (places : Places) (fs : FileSystem) :
    places.discover fs = (places.candidates.filterMap (found? fs)).foldl .merge {} := by
  rw [discover, files, List.foldl_filterMap, List.foldl_filterMap]
  congr 1
  funext found paths
  unfold found?
  cases paths.find? fs.contains with
  | none => rfl
  | some path =>
    simp only [Option.bind_some]
    cases FileSettings.load fs path <;> rfl

/-- Files are put together as they would be taken one after the other, and so are those that are
found: of the shared, the personal and the current directory, in this order, each gives its first
file that is there. If that one cannot be loaded, it is as if the place had no file. -/
theorem merged_in_order :
    (∀ {lower upper : FileSettings}, lower.fault? = none → upper.fault? = none →
      (lower.merge upper).fault? = none ∧
      ∀ s, (lower.merge upper).layer.apply s = upper.layer.apply (lower.layer.apply s)) ∧
    (∀ a b c : FileSettings, (a.merge b).merge c = a.merge (b.merge c)) ∧
    (∀ a : FileSettings, a.merge a = a ∧ a.merge {} = a ∧ FileSettings.merge {} a = a) ∧
    (∀ fs paths, found? fs paths = none ↔
      (∀ path ∈ paths, fs.contains path = false) ∨
      ∃ path error, paths.find? fs.contains = some path ∧
        FileSettings.load fs path = .error error) ∧
    ∀ (places : Places) fs, (places.discover fs).fault? = none ∧
      ∀ s, (places.discover fs).layer.apply s =
        ([places.shared, places.personal, here].filterMap (found? fs)).foldl
          (fun s file => file.layer.apply s) s := by
  refine ⟨?_, FileSettings.merge_assoc, ?_, fun fs paths => found?_eq_none_iff, ?_⟩
  · intro lower upper hlower hupper
    rw [FileSettings.valid_iff] at hlower hupper ⊢
    exact ⟨hlower.merge hupper, FileSettings.apply_merge hupper⟩
  · exact fun a => ⟨a.merge_self, a.merge_empty, a.empty_merge⟩
  · intro places fs
    have hvalid : ∀ file ∈ places.candidates.filterMap (found? fs), file.Valid := by
      intro file hfile
      obtain ⟨paths, -, hfound⟩ := List.mem_filterMap.1 hfile
      exact valid_of_found? hfound
    rw [discover_eq]
    refine ⟨FileSettings.valid_iff.2 ?_, FileSettings.apply_foldl_merge hvalid {}⟩
    exact FileSettings.valid_foldl_merge hvalid FileSettings.valid_empty

/-- A home directory with two settings files, of which the first one cannot be read. -/
def brokenHome : FileSystem where
  nodes :=
    [ (["home"], .directory),
      ([".domain-scout.toml", "home"], .file "[".toUTF8.data),
      (["domain-scout.toml", "home"], .file "[defaults]\nretries = 5\n".toUTF8.data) ]
  current := []

/-- A rate of zero in the upper file takes the limit away that the lower one sets, and a broken file
gives nothing. -/
theorem merged_brokenHome :
    (∃ lower upper : FileSettings, lower.fault? = none ∧ upper.fault? = none ∧
      ((lower.merge upper).layer.apply .standard).rateLimit = none ∧
      ((lower.merge upper).layer.apply .standard).retries = 3) ∧
    ∀ s, (Places.discover ⟨some "home", none⟩ brokenHome).layer.apply s = s := by
  obtain ⟨hmerge, -, -, -, hdiscover⟩ := merged_in_order
  let lower : FileSettings := { defaults := some { rate := some 5, retries := some 3 } }
  let upper : FileSettings := { defaults := some { rate := some 0 }, cache := some {} }
  have hlower : lower.fault? = none := by decide
  have hupper : upper.fault? = none := by decide
  refine ⟨⟨lower, upper, hlower, hupper, ?_, ?_⟩, ?_⟩
  · rw [(hmerge hlower hupper).2]
    decide
  · rw [(hmerge hlower hupper).2]
    decide
  · have hfound : [Places.shared ⟨some "home", none⟩, personal ⟨some "home", none⟩,
        here].filterMap (found? brokenHome) = [] := by decide +kernel
    intro s
    rw [(hdiscover _ _).2, hfound, List.foldl_nil]

/-- A file that cannot be loaded still hides another one in the same place. -/
theorem not_merged_as_if_absent :
    ¬ ∀ (places : Places) (fs : FileSystem) (path : String) (place : Location) (error : Error),
      path ∈ places.files fs → FileSettings.load fs path = .error error →
      fs.locate path = .ok place → ∀ s,
        (places.discover fs).layer.apply s = (places.discover (fs.erase place)).layer.apply s := by
  intro hall
  have hsame := hall ⟨some "home", none⟩ brokenHome "home/.domain-scout.toml"
    [".domain-scout.toml", "home"]
    (.config "Failed to parse TOML configuration: malformed text or value") (by decide +kernel)
    (by decide +kernel) (by decide +kernel) .standard
  have hbefore : (Places.discover ⟨some "home", none⟩ brokenHome).layer.apply .standard =
      .standard := by decide +kernel
  have hafter : ((Places.discover ⟨some "home", none⟩
      (brokenHome.erase [".domain-scout.toml", "home"])).layer.apply .standard).retries = 5 := by
    decide +kernel
  rw [← hsame, hbefore] at hafter
  cases hafter

end Places

end NameHunt
