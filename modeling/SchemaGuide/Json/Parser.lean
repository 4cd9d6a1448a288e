import SchemaGuide.Json.Token

/-!
From tokens to what is written. The containers that are open form a stack, and every token moves the parser one step,
so reading ends with the tokens.
-/

namespace SchemaGuide.Json

/-- The greatest number of containers inside one another. -/
def greatestDepth : Nat := 127

/-- A container that is open, its content so far last first. -/
inductive Frame where
  | array (done : List Written)
  | object (done : List (Option String × Written))
  /-- An object in which the value of `key` is being read. -/
  | member (done : List (Option String × Written)) (key : Option String)

inductive Phase where
  /-- A value comes next; at the `first` place of an array its end may come instead. -/
  | value (first : Bool)
  /-- A key comes next; at the `first` place of an object its end may come instead. -/
  | key (first : Bool)
  | colon (key : Option String)
  | after (written : Written)

structure Parse where
  stack : List Frame
  phase : Phase

namespace Parse

def start : Parse := ⟨[], .value false⟩

/-- A finished container. Below the greatest depth it cannot be read. -/
def closed (outer : List Frame) (written : Written) : Parse :=
  ⟨outer, .after (if outer.length < greatestDepth then written else .unreadable)⟩

def begin? (parse : Parse) : Token → Option Parse
  | .scalar written => some ⟨parse.stack, .after written⟩
  | .text value => some ⟨parse.stack, .after ((value.map Written.str).getD .unreadable)⟩
  | .beginArray => some ⟨.array [] :: parse.stack, .value true⟩
  | .beginObject => some ⟨.object [] :: parse.stack, .key true⟩
  | _ => none

/-- What may follow a value: the next item of the container around it, or the end of that container. -/
def continue? (written : Written) : List Frame → Token → Option Parse
  | .array done :: outer, .comma => some ⟨.array (written :: done) :: outer, .value false⟩
  | .array done :: outer, .endArray => some (closed outer (.arr (written :: done).reverse))
  | .member done key :: outer, .comma => some ⟨.object ((key, written) :: done) :: outer, .key false⟩
  | .member done key :: outer, .endObject => some (closed outer (.obj ((key, written) :: done).reverse))
  | _, _ => none

def step? (parse : Parse) (token : Token) : Option Parse :=
  match parse.phase, token, parse.stack with
  | .value true, .endArray, .array [] :: outer => some (closed outer (.arr []))
  | .value _, token, _ => parse.begin? token
  | .key true, .endObject, .object [] :: outer => some (closed outer (.obj []))
  | .key _, .text key, stack => some ⟨stack, .colon key⟩
  | .colon key, .colon, .object done :: outer => some ⟨.member done key :: outer, .value false⟩
  | .after written, token, stack => continue? written stack token
  | _, _, _ => none

def finish? (parse : Parse) : Option Written :=
  match parse.stack, parse.phase with
  | [], .after written => some written
  | _, _ => none

end Parse

def written? (text : String) : Option Written :=
  (tokens? text).bind fun tokens => (tokens.foldlM Parse.step? Parse.start).bind Parse.finish?

def parse? (text : String) : Option Json := (written? text).bind Written.value?

end SchemaGuide.Json
