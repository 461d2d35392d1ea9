import Tepegoz.Tui.Tile

namespace Tepegoz

def prefixByte : UInt8 := 0x02
def tab : UInt8 := 0x09
def esc : UInt8 := 0x1b
def csiOpen : UInt8 := 0x5b

def isCsiFinal (b : UInt8) : Bool := 0x40 ≤ b ∧ b ≤ 0x7e

def isCsiParamOrIntermediate (b : UInt8) : Bool := 0x20 ≤ b ∧ b ≤ 0x3f

/-- A keyboard byte written as its character. -/
def key (c : Char) : UInt8 := UInt8.ofNat c.toNat

inductive InputAction
  | forward (data : List UInt8)
  | detach
  | focusDirection (dir : FocusDir)
  | focusNext
  | focusPrev
  | help
  | paneClose
  | openHostPicker
  deriving DecidableEq

inductive FilterState
  | normal
  | prefixActive
  | prefixEsc
  | prefixCsi
  | bareCsi
  | bareCsiCollect (buf : List UInt8)
  deriving DecidableEq

/-- The control key after `Ctrl-b`. -/
def controlOf (b : UInt8) : Option InputAction :=
  if b = key 'd' then some .detach
  else if b = key 'h' then some (.focusDirection .left)
  else if b = key 'j' then some (.focusDirection .down)
  else if b = key 'k' then some (.focusDirection .up)
  else if b = key 'l' then some (.focusDirection .right)
  else if b = key '?' then some .help
  else if b = key '&' then some .paneClose
  else if b = key 't' then some .openHostPicker
  else none

/-- The arrow after `Ctrl-b ESC [`. -/
def arrowOf (b : UInt8) : Option FocusDir :=
  if b = key 'A' then some .up
  else if b = key 'B' then some .down
  else if b = key 'C' then some .right
  else if b = key 'D' then some .left
  else none

/-- What was collected in `out`, if anything. -/
def flush (out : List UInt8) : List InputAction := if out = [] then [] else [.forward out]

/-- `InputFilter::process`; a control action ends the chunk. -/
def InputFilter.process : FilterState → List UInt8 → List UInt8 → FilterState × List InputAction
  | state, out, [] => (state, flush out)
  | .normal, out, b :: rest =>
    if b = tab then (.normal, flush out ++ [.focusNext])
    else if b = prefixByte then process .prefixActive out rest
    else if b = esc then
      match rest with
      | c :: rest' =>
        if c = csiOpen then process .bareCsi out rest' else process .normal (out ++ [b]) (c :: rest')
      | [] => (.normal, flush (out ++ [b]))
    else process .normal (out ++ [b]) rest
  | .prefixActive, out, b :: rest =>
    match controlOf b with
    | some action => (.normal, flush out ++ [action])
    | none =>
      if b = esc then process .prefixEsc out rest
      else process .normal (out ++ [prefixByte, b]) rest
  | .prefixEsc, out, b :: rest =>
    if b = csiOpen then process .prefixCsi out rest
    else process .normal (out ++ [prefixByte, esc, b]) rest
  | .prefixCsi, out, b :: rest =>
    match arrowOf b with
    | some dir => (.normal, flush out ++ [.focusDirection dir])
    | none => process .normal (out ++ [prefixByte, esc, csiOpen, b]) rest
  | .bareCsi, out, b :: rest =>
    if b = key 'Z' then (.normal, flush out ++ [.focusPrev])
    else if isCsiFinal b then process .normal (out ++ [esc, csiOpen, b]) rest
    else if isCsiParamOrIntermediate b then process (.bareCsiCollect [b]) out rest
    else process .normal (out ++ [esc, csiOpen, b]) rest
  | .bareCsiCollect buf, out, b :: rest =>
    if isCsiFinal b then process .normal (out ++ ([esc, csiOpen] ++ buf ++ [b])) rest
    else if isCsiParamOrIntermediate b then process (.bareCsiCollect (buf ++ [b])) out rest
    else process .normal (out ++ ([esc, csiOpen] ++ buf ++ [b])) rest

inductive ScopeKey
  | up
  | down
  | top
  | bottom
  | home
  | endKey
  | pgUp
  | pgDn
  | filterStart
  | escape
  | enter
  | backspace
  | char (b : UInt8)
  deriving DecidableEq

/-- The key that a letter stands for in lists. -/
def ScopeKey.ofLetter : ScopeKey → ScopeKey
  | .char b =>
    if b = key 'j' then .down
    else if b = key 'k' then .up
    else if b = key 'g' then .top
    else if b = key 'G' then .bottom
    else .char b
  | k => k

inductive KeyParserState
  | normal
  | escape
  | csi (accum : List UInt8)
  deriving DecidableEq

namespace ScopeKeyParser

/-- A byte outside escape sequences. -/
def plainKey (b : UInt8) : ScopeKey :=
  if b = 0x7f ∨ b = 0x08 then .backspace
  else if b = 0x0a ∨ b = 0x0d then .enter
  else .char b

/-- The key of a sequence that ends in `~`. -/
def tildeKey (accum : List UInt8) : List ScopeKey :=
  if accum = [key '1'] ∨ accum = [key '7'] then [.home]
  else if accum = [key '4'] ∨ accum = [key '8'] then [.endKey]
  else if accum = [key '5'] then [.pgUp]
  else if accum = [key '6'] then [.pgDn]
  else []

def step (state : KeyParserState) (b : UInt8) : KeyParserState × List ScopeKey :=
  match state with
  | .normal => if b = esc then (.escape, []) else (.normal, [plainKey b])
  | .escape =>
    if b = csiOpen then (.csi [], [])
    else if b = esc then (.escape, [.escape])
    else (.normal, [.escape, plainKey b])
  | .csi accum =>
    if b = key 'A' then (.normal, [.up])
    else if b = key 'B' then (.normal, [.down])
    else if b = key 'C' ∨ b = key 'D' then (.normal, [])
    else if b = key 'H' then (.normal, [.home])
    else if b = key 'F' then (.normal, [.endKey])
    else if b = key '~' then (.normal, tildeKey accum)
    else if key '0' ≤ b ∧ b ≤ key '9' ∨ b = key ';' then (.csi (accum ++ [b]), [])
    else (.normal, [])

/-- A lone `ESC` at the end of a chunk is a press of Escape. -/
def parse (state : KeyParserState) (bytes : List UInt8) : KeyParserState × List ScopeKey :=
  let parsed := bytes.foldl
    (fun acc b => let next := step acc.1 b; (next.1, acc.2 ++ next.2)) (state, [])
  if parsed.1 = .escape then (.normal, parsed.2 ++ [.escape]) else parsed

end ScopeKeyParser

end Tepegoz
