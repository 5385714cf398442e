import HandleBench.Pipeline.Carrier
import HandleBench.Pipeline.Product

/-!
# The pipeline

The steps of the pipeline for every kind of instance.
-/

namespace HandleBench.Instance

/-- Copies the host's samples into a payload. -/
def encode : Instance → SessionId → List Pack → Act World Handle
  | product p => p.encode
  | carrier _ => Carrier.encode

/-- Writes a payload into the host's packs, as much as fits. -/
def decode : Instance → SessionId → Handle → List Pack → Act World (List Pack)
  | product _ => Product.decode
  | carrier _ => Carrier.decode

/-- Shares encoded data as encrypted data. -/
def encrypt : Instance → SessionId → Handle → Act World Handle
  | product _ => Product.encrypt
  | carrier _ => Carrier.share

/-- Shares encrypted data as decrypted data. -/
def decrypt : Instance → SessionId → Handle → Act World Handle
  | product _ => Product.decrypt
  | carrier _ => Carrier.share

/-- Shares encrypted data as loaded data. -/
def load : Instance → SessionId → List Handle → Act World Handle
  | product _ => Product.load
  | carrier _ => Carrier.load

/-- Shares results through the host's slots. -/
def store : Instance → SessionId → Handle → List Handle → Act World (List Handle)
  | product _ => Product.store
  | carrier _ => Carrier.store

/-- Runs the workload on the selected samples. -/
def operate : Instance → SessionId → Handle → List Selection → Act World Handle
  | product p => p.operate
  | carrier config => fun session loaded _ => Carrier.operate config session loaded

end HandleBench.Instance
