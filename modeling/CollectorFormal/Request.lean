/-! What the queue and the batcher see of a request, and how they measure it. -/

namespace CollectorFormal

/-- What a queued request has to offer: the two measures of `request.Request`. -/
class Request (T : Type) where
  itemsCount : T → Int
  bytesSize : T → Int

inductive SizerType where
  | requests
  | items
  | bytes
  deriving DecidableEq

def sizeof {T : Type} [Request T] : SizerType → T → Int
  | .bytes, req => Request.bytesSize req
  | .items, req => Request.itemsCount req
  | .requests, _ => 1

end CollectorFormal
