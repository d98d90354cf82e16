import A2ARegistry.Orchestration.Swarm
import A2ARegistry.Orchestration.Proofs.Effects

namespace A2ARegistry.Orchestration.Swarm
open Base

/-- Something that is said on the root of a swarm: a post that `post_blackboard` has made, or any other comment. -/
inductive Remark (p : Python)
  | post (clock : Clock) (author key : String) (value : Json) (decoded : value.Decoded p)
  | comment (clock : Clock) (author body : String)

namespace Remark

variable {p : Python}

def clock : Remark p → Clock
  | .post clock .. | .comment clock .. => clock

def author : Remark p → String
  | .post _ author .. | .comment _ author _ => author

def body : Remark p → String
  | .post _ _ key value _ => makeBlackboardBody key value
  | .comment _ _ body => body

def step (rootId : String) (db : Db) : Remark p → Db
  | .post clock author key value _ => (db.tx (postBlackboard db clock rootId author key value)).2
  | .comment clock author body => (db.tx (addComment db clock rootId author body)).2

/-- What a remark posts. A comment that is written like a post is one. -/
def post? (limits : Json.Limits) : Remark p → Option Post
  | .post _ author key value _ => some ⟨.str key, value, author⟩
  | .comment _ author body => match Post.ofComment limits p author body with
    | .ok written => written
    | .error _ => none

end Remark

/-- The posts among the remarks in comment order. -/
def posts {p : Python} (limits : Json.Limits) (remarks : List (Remark p)) : List Post :=
  (remarks.mergeSort (fun r s => r.clock.now ≤ s.clock.now)).filterMap (Remark.post? limits)

def lastPost (posts : List Post) (key : String) : Option Post :=
  posts.reverse.find? (fun post => post.key.eqText (some key))

/-- The cell equals a JSON value. The dict of the authors does if it has text keys only, and the same ones with the
same authors. -/
def Cell.Is : Cell → Json → Prop
  | .value v, w => v = w
  | .authors d, w => ∃ fields, w = .obj fields ∧ (∀ a ∈ d, ∃ key, a.1 = .str key) ∧
    ∀ key, (fields.find? (fun f => f.1 == key)).map Prod.snd = (d.get key).map Json.str

/-- The blackboard that is read has the last post of every key, with its author, and no other keys. -/
def Folded (limits : Json.Limits) (p : Python) (db : Db) (rootId : String) (posts : List Post) : Prop :=
  ∃ board authors, readBlackboard limits p db rootId = .ok board ∧ board.get "_authors" = some (.authors authors) ∧
    ∀ key, match lastPost posts key with
      | some post => (∃ cell, board.get key = some cell ∧ cell.Is post.value) ∧ authors.get key = some post.author
      | none => (key = "_authors" ∨ board.get key = none) ∧ authors.get key = none

/-- Behind the prefix `json.loads` gets to a bound of the interpreter, or finds a JSON value that is no object, or an
object whose key is a list or an object. -/
def Unreadable (limits : Json.Limits) (p : Python) (body : String) : Prop :=
  ∃ text, blackboardText body = some text ∧ ((∃ o, Json.loadsWithin limits p text = .error (.overrun o)) ∨
    ∃ v, Json.loadsWithin limits p text = .ok v ∧
      ((∀ data, v ≠ .obj data) ∨ ∃ data, v = .obj data ∧ (Json.field data "key").isLeaf = false))

variable {limits : Json.Limits} {p : Python}

section Comments

theorem ofData_error_iff {author : String} {v : Json} : (∃ e, Post.ofData author v = .error e) ↔
    (∀ data, v ≠ .obj data) ∨ ∃ data, v = .obj data ∧ (Json.field data "key").isLeaf = false := by
  cases v with
  | obj data =>
    cases hkey : Json.field data "key" <;> simp [Post.ofData, hkey, Json.isLeaf]
  | _ => simp [Post.ofData]

theorem ofComment_error_iff (author : String) {body : String} :
    (∃ e, Post.ofComment limits p author body = .error e) ↔ Unreadable limits p body := by
  unfold Post.ofComment Unreadable
  cases htext : blackboardText body with
  | none => simp
  | some text =>
    rw [Option.map_some]
    cases hloads : Json.loadsWithin limits p text with
    | ok v => simp [hloads, ofData_error_iff]
    | error e => cases e <;> simp [hloads]

/-- The text of a post is found behind the prefix, as it was dumped. -/
theorem text_makeBlackboardBody (key : String) (value : Json) : blackboardText (makeBlackboardBody key value) =
    some (Json.dumpsPlain (.obj [("key", .str key), ("value", value)])) := by
  have hbody : (makeBlackboardBody key value).toList = blackboardPrefix.toList ++
      (Json.dumpsPlain (.obj [("key", .str key), ("value", value)])).toList := String.toList_append
  have hlen : blackboardPrefix.toList.length = blackboardPrefix.length := String.length_toList
  have hbrace : ∃ more, (Json.dumpsPlain (.obj [("key", .str key), ("value", value)])).toList = '{' :: more :=
    ⟨_, by rw [Json.dumpsPlain, String.toList_ofList, Json.render]⟩
  obtain ⟨more, hmore⟩ := hbrace
  have hprefix : blackboardPrefix.toList.isPrefixOf (makeBlackboardBody key value).toList = true := by
    rw [hbody, List.isPrefixOf_iff_prefix]
    exact List.prefix_append _ _
  rw [blackboardText, if_pos hprefix, hbody, ← hlen, List.drop_left, hmore, List.dropWhile_cons_of_neg (by decide),
    ← hmore, String.ofList_toList]

/-- What `post_blackboard` writes is read as the post it is, unless that takes `json.loads` beyond a bound. -/
theorem ofComment_post (author key : String) {value : Json} (hvalue : value.Decoded p) :
    Post.ofComment limits p author (makeBlackboardBody key value) = .ok (some ⟨.str key, value, author⟩) ∨
      ∃ o, Post.ofComment limits p author (makeBlackboardBody key value) = .error (.overrun o) := by
  have hobject : (Json.obj [("key", .str key), ("value", value)]).Decoded p := by
    refine Json.every_obj.mpr ⟨by simp [Json.decodedNode], fun f hf => ?_⟩
    simp only [List.mem_cons, List.not_mem_nil, or_false] at hf
    rcases hf with rfl | rfl
    · exact (Json.every_leaf rfl).mpr trivial
    · exact hvalue
  rw [Post.ofComment, text_makeBlackboardBody, Option.map_some]
  rcases Json.loadsWithin_of_loads limits (Json.loads_dumpsPlain hobject) with hok | ⟨o, ho⟩
  · rw [hok]
    exact Or.inl rfl
  · rw [ho]
    exact Or.inr ⟨o, rfl⟩

end Comments

section Folding

/-- A remark on which `read_blackboard` does not raise. -/
theorem Remark.ofComment_readable {r : Remark p} (h : ¬ Unreadable limits p r.body) :
    Post.ofComment limits p r.author r.body = .ok (r.post? limits) := by
  cases r with
  | post clock author key value decoded =>
    rcases ofComment_post author key decoded with hpost | ⟨o, ho⟩
    · exact hpost
    · exact absurd ((ofComment_error_iff author).mp ⟨_, ho⟩) h
  | comment clock author body =>
    cases hread : Post.ofComment limits p author body with
    | ok written =>
      simp only [Remark.author, Remark.body, Remark.post?, hread]
    | error e => exact absurd ((ofComment_error_iff author).mp ⟨e, hread⟩) h

/-- The dicts after some posts. -/
theorem put_all (posts : List Post) (b : Board) : posts.foldl Board.put b =
    ⟨posts.reverse.map (fun post => (post.key, post.value)) ++ b.blackboard,
      posts.reverse.map (fun post => (post.key, post.author)) ++ b.authors⟩ := by
  induction posts generalizing b with
  | nil => rfl
  | cons post posts ih =>
    rw [List.foldl_cons, ih, List.reverse_cons, List.map_append, List.map_append, Board.put]
    simp

theorem get_map {α β : Type} (f : β → Json × α) (l : List β) (key : String) :
    Dict.get (l.map f) key = (l.find? (fun b => (f b).1.eqText (some key))).map (fun b => (f b).2) := by
  rw [Dict.get, List.find?_map, Option.map_map]
  rfl

/-- The loop over comments that can all be read. -/
theorem take_all {rs : List (Remark p)} (h : ∀ r ∈ rs, ¬ Unreadable limits p r.body) (b : Board) :
    rs.foldlM (fun (b : Board) r => b.take limits p r.author r.body) b = .ok ((rs.filterMap (Remark.post? limits)).foldl Board.put b) := by
  induction rs generalizing b with
  | nil => rfl
  | cons r rs ih =>
    have hrest : ∀ r ∈ rs, ¬ Unreadable limits p r.body := fun r hr => h r (List.mem_cons_of_mem _ hr)
    have hr := Remark.ofComment_readable (h r List.mem_cons_self)
    rw [List.foldlM_cons, Board.take, hr]
    cases hpost : r.post? limits with
    | none =>
      rw [List.filterMap_cons_none hpost]
      exact ih hrest b
    | some post =>
      rw [List.filterMap_cons_some hpost, List.foldl_cons]
      exact ih hrest (b.put post)

/-- One comment that cannot be read stops the loop. -/
theorem take_error {rs : List (Remark p)} {r : Remark p} (hr : r ∈ rs) (h : Unreadable limits p r.body) (b : Board) :
    ∃ e, rs.foldlM (fun (b : Board) r => b.take limits p r.author r.body) b = .error e := by
  induction rs generalizing b with
  | nil => cases hr
  | cons first rs ih =>
    rw [List.foldlM_cons]
    cases hfirst : b.take limits p first.author first.body with
    | error e => exact ⟨e, rfl⟩
    | ok b' =>
      rcases List.mem_cons.mp hr with rfl | hr
      · obtain ⟨e, he⟩ := (ofComment_error_iff r.author).mpr h
        rw [Board.take, he] at hfirst
        cases hfirst
      · exact ih hr b'

end Folding

section Storing

variable {db : Db} {rootId : String}

theorem Remark.step_eq (r : Remark p) (rootId : String) (db : Db) :
    r.step rootId db = (db.tx (addComment db r.clock rootId r.author r.body)).2 := by
  cases r <;> rfl

/-- A remark is one more comment of the root. -/
theorem Remark.step_comments (hroot : (db.task? rootId).isSome) (r : Remark p) :
    ((r.step rootId db).task? rootId).isSome ∧
      ∃ c : TaskComment, (r.step rootId db).comments.select (fun c => c.taskId == rootId) =
          db.comments.select (fun c => c.taskId == rootId) ++ [c] ∧
        c.createdAt = r.clock.now ∧ c.author = r.author ∧ c.body = r.body := by
  obtain ⟨t, ht⟩ := Option.isSome_iff_exists.mp hroot
  have hadd : ∃ c : TaskComment, addComment db r.clock rootId r.author r.body = .ok (c,
      emitEvent { db with comments := db.comments.insert (fun id => ⟨id, rootId, r.author, r.body, r.clock.now⟩) }
        r.clock rootId TaskEventKind.commented.value none [("author", .str r.author)]) := by
    simp only [addComment, ht]
    exact ⟨_, rfl⟩
  obtain ⟨c, hadd⟩ := hadd
  rw [Remark.step_eq, hadd]
  refine ⟨hroot, ⟨db.comments.next, rootId, r.author, r.body, r.clock.now⟩, ?_, rfl, rfl, rfl⟩
  change (db.comments.rows ++ [_]).filter _ = db.comments.rows.filter _ ++ _
  rw [List.filter_append, List.filter_cons_of_pos (by simp), List.filter_nil]

/-- What the fold reads of a comment. -/
def TaskComment.content (c : TaskComment) : Int × String × String := (c.createdAt, c.author, c.body)

def Remark.content (r : Remark p) : Int × String × String := (r.clock.now, r.author, r.body)

theorem run_comments (hroot : (db.task? rootId).isSome) (remarks : List (Remark p)) :
    ((exec (fun db (r : Remark p) => r.step rootId db) db remarks).comments.select (fun c => c.taskId == rootId)).map
        TaskComment.content =
      (db.comments.select (fun c => c.taskId == rootId)).map TaskComment.content ++ remarks.map Remark.content := by
  induction remarks generalizing db with
  | nil => simp
  | cons r remarks ih =>
    obtain ⟨hroot', c, hselect, hat, hauthor, hbody⟩ := r.step_comments hroot
    have hcontent : TaskComment.content c = r.content := by
      rw [TaskComment.content, Remark.content, hat, hauthor, hbody]
    rw [exec_cons, ih hroot', hselect, List.map_append, List.append_assoc, List.map_cons, List.map_nil, hcontent,
      List.map_cons, List.singleton_append]

theorem sort_content {α : Type} (f : α → Int × String × String) (l : List α) :
    (l.mergeSort (fun a b => (f a).1 ≤ (f b).1)).map f = (l.map f).mergeSort (fun a b => a.1 ≤ b.1) :=
  List.map_mergeSort fun _ _ _ _ => rfl

/-- The comments of the root are the remarks in comment order. -/
theorem getComments_run (hroot : (db.task? rootId).isSome) (hnew : getComments db rootId = [])
    (remarks : List (Remark p)) :
    (getComments (exec (fun db (r : Remark p) => r.step rootId db) db remarks) rootId).map TaskComment.content =
      (remarks.mergeSort (fun r s => r.clock.now ≤ s.clock.now)).map Remark.content := by
  have hnone : db.comments.select (fun c => c.taskId == rootId) = [] := by
    have hlen := congrArg List.length hnew
    rw [getComments, List.length_mergeSort] at hlen
    exact List.eq_nil_of_length_eq_zero hlen
  have hrun := run_comments hroot remarks
  rw [hnone, List.map_nil, List.nil_append] at hrun
  have hstored := sort_content TaskComment.content
    ((exec (fun db (r : Remark p) => r.step rootId db) db remarks).comments.select (fun c => c.taskId == rootId))
  have hsaid := sort_content (Remark.content (p := p)) remarks
  rw [hrun] at hstored
  exact hstored.trans hsaid.symm

/-- So the fold goes over the remarks. -/
theorem readBlackboard_run (hroot : (db.task? rootId).isSome) (hnew : getComments db rootId = [])
    (remarks : List (Remark p)) :
    readBlackboard limits p (exec (fun db (r : Remark p) => r.step rootId db) db remarks) rootId =
      ((remarks.mergeSort (fun r s => r.clock.now ≤ s.clock.now)).foldlM
        (fun (b : Board) r => b.take limits p r.author r.body) Board.empty).map Board.result := by
  have hcomments := getComments_run hroot hnew remarks
  let read := fun (b : Board) (c : Int × String × String) => b.take limits p c.2.1 c.2.2
  have hread := congrArg (fun cs => cs.foldlM read Board.empty) hcomments
  simp only [List.foldlM_map] at hread
  exact congrArg (Except.map Board.result) hread

end Storing

section Main

/-- The dict of the authors of some posts. -/
def authorsOf (posts : List Post) : Dict String := posts.reverse.map (fun post => (post.key, post.author))

theorem get_authorsOf (posts : List Post) (key : String) :
    (authorsOf posts).get key = (lastPost posts key).map Post.author :=
  get_map _ _ _

/-- What the board gives for a key, once the authors are on it. -/
theorem get_result (posts : List Post) (key : String) :
    (posts.foldl Board.put Board.empty).result.get key =
      if key = "_authors" then some (.authors (authorsOf posts))
      else (lastPost posts key).map (fun post => .value post.value) := by
  have hboard : (posts.foldl Board.put Board.empty).result =
      (.str "_authors", .authors (authorsOf posts)) ::
        posts.reverse.map (fun post => (post.key, .value post.value)) := by
    rw [put_all, Board.result, authorsOf]
    simp [Board.empty]
  rw [hboard, Dict.get, List.find?_cons]
  by_cases hkey : key = "_authors"
  · rw [if_pos hkey, hkey]
    rfl
  · have hother : (Json.str "_authors").eqText (some key) = false := by simpa [Json.eqText] using hkey
    rw [if_neg hkey]
    simp only [hother]
    exact get_map _ _ _

/-- A database with the root of a swarm. -/
def oneRoot : Db := Orchestration.step Db.empty (.createTask (.fixed 0) "a" { title := "Swarm" })

theorem oneRoot_new : getComments oneRoot "t_a" = [] := by
  have hnone : oneRoot.comments.select (fun c => c.taskId == "t_a") = [] := by decide
  rw [getComments, hnone, List.mergeSort_nil]

def samplePython : Python := ⟨id, fun c => ' ' ≤ c ∧ c ≤ '~'⟩

/-- Two posts of one key, and a comment between them that is no post. -/
def sampleRemarks : List (Remark samplePython) :=
  [.post (.fixed 1) "w1" "result" (.int 1) ((Json.every_leaf rfl).mpr trivial), .comment (.fixed 1) "w2" "looks good",
    .post (.fixed 1) "w2" "result" (.int 2) ((Json.every_leaf rfl).mpr trivial)]

/-- The default bounds. -/
def sampleLimits : Json.Limits := ⟨1000, 4300⟩

/-- Where `json.loads` may nest only twice, a list in an object that is posted is too deep. -/
example : (Post.ofComment ⟨2, 4300⟩ samplePython "w1" (makeBlackboardBody "plan" (.obj [("steps", .arr [])]))).toOption
    = none := by decide +kernel

end Main

end A2ARegistry.Orchestration.Swarm
